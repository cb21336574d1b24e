import FieldQuery.Proofs.Query.CompletedBlocks
import FieldQuery.Proofs.Query.Spacing

/-!
# Balance inside blocks

A block is closed only when the braces, the quotation marks and the argument lists that were opened
inside it are closed. The level that is read from its text sees all of these where the block saw
them, for as long as it finds no fault. So what is not closed, or closes nothing, is reported by
the outermost level only.
-/

set_option autoImplicit false

namespace FieldQuery.Query

open Fallible

/-- The causes that lie in the balance of a text: something is not closed or closes nothing, or a
line ends in an argument list. -/
def ParseError.Unbalanced : ParseError → Prop
  | unterminatedBrace _ | unterminatedArguments _ | unexpectedClosingBrace _
  | newlineInArguments _ => True
  | _ => False

namespace ArgumentList

theorem not_unbalanced_of_add {arguments : Arguments} {key : String} {value : ArgumentValue}
    {here : Position} {error : ParseError}
    (failed : add arguments key value here = .error error) : ¬ error.Unbalanced := by
  simp only [add] at failed
  split at failed <;> cases failed
  exact id

theorem not_unbalanced_of_commit {arguments : Arguments} {slot : Slot} {here : Position}
    {error : ParseError} (failed : commit arguments slot here = .error error) :
    ¬ error.Unbalanced := by
  cases slot with
  | key name ended =>
      simp only [commit] at failed
      split at failed <;> cases failed
      exact id
  | bare key token spaced =>
      simp only [commit] at failed
      split at failed
      · cases failed
        exact id
      split at failed
      · exact not_unbalanced_of_add failed
      · cases failed
        exact id
  | quoted key text quotation => exact not_unbalanced_of_add failed

theorem not_unbalanced_of_write {slot : Slot} {character : Char} {here : Position}
    {error : ParseError} (failed : write slot character here = .error error) :
    ¬ error.Unbalanced := by
  cases slot with
  | key name ended =>
      simp only [write] at failed
      split at failed
      all_goals
        split at failed <;> cases failed
        exact id
  | bare key token spaced =>
      simp only [write] at failed
      split at failed
      · split at failed <;> cases failed
        exact id
      · cases failed
  | quoted key text quotation =>
      simp only [write] at failed
      split at failed <;> cases failed
      exact id

/-- An argument list finds nothing wrong with the balance but a line feed. -/
theorem not_unbalanced_of_step {list : ArgumentList} {character : Char} {here : Position}
    {error : ParseError} (notNewline : character ≠ '\n')
    (failed : list.step character here = .error error) : ¬ error.Unbalanced := by
  simp only [step, if_neg notNewline] at failed
  split at failed
  · cases failed
  · cases failed
  simp only [stepOutside] at failed
  split at failed
  · rcases bind_eq_error_iff.mp failed with uncommitted | ⟨_, _, returned⟩
    · exact not_unbalanced_of_commit uncommitted
    · cases returned
  split at failed
  · rcases bind_eq_error_iff.mp failed with uncommitted | ⟨_, _, returned⟩
    · exact not_unbalanced_of_commit uncommitted
    · cases returned
  split at failed
  · cases failed
  · rcases bind_eq_error_iff.mp failed with unwritten | ⟨_, _, returned⟩
    · exact not_unbalanced_of_write unwritten
    · cases returned

end ArgumentList

/-! ## Blocks and the levels in them -/

namespace Block

section

variable {block next : Block} {character : Char} {here : Position} {text : String}

theorem stays_open_of_step (stepped : block.step character here = .ok (.waiting next)) :
    ¬ (character = '\n' ∧ block.surroundings.inArguments = true) ∧
      block.bracesAfter character ≠ 0 := by
  simp only [step] at stepped
  split at stepped
  · cases stepped
  next accepted =>
  split at stepped
  · cases stepped
  · next stillOpen => exact ⟨accepted, stillOpen⟩

theorem noneOpen_of_step (stepped : block.step character here = .ok (.closed text)) :
    block.bracesAfter character = 0 := by
  simp only [step] at stepped
  split at stepped
  · cases stepped
  split at stepped
  · next noneOpen => exact noneOpen
  · cases stepped

/-- What closes a block is a brace outside comments and argument lists, the last one open. -/
theorem closing_of_noneOpen (stillOpen : 1 ≤ block.openBraces)
    (noneOpen : block.bracesAfter character = 0) :
    block.surroundings = .plain ∧ character = '}' ∧ block.openBraces = 1 := by
  simp only [bracesAfter] at noneOpen
  split at noneOpen
  · next plain =>
      split at noneOpen
      · cases noneOpen
      split at noneOpen
      · next closing => exact ⟨plain, closing, by omega⟩
      · omega
  · omega

end

end Block

def Focus.surroundings : Focus → Surroundings
  | .between _ => .plain
  | .comment _ => .comment
  | .arguments _ _ list => list.slot.surroundings
  | .block _ _ inner => inner.surroundings

def Focus.openBraces : Focus → Nat
  | .block _ _ inner => inner.openBraces
  | _ => 0

def Focus.Live : Focus → Prop
  | .block _ _ inner => 1 ≤ inner.openBraces
  | _ => True

namespace Level

def feed (level : Level) (here : Position) : List Char → Option Level
  | [] => some level
  | character :: rest =>
      match level.step character here with
      | .ok (next, _) => next.feed (here.advance character) rest
      | .error _ => none

/-- A block and a level that has read the text of the block agree: on comments, argument lists and
quotation marks, and on the braces that are open. -/
structure Agrees (block : Block) (level : Level) : Prop where
  surroundings : block.surroundings = level.focus.surroundings
  openBraces : block.openBraces = 1 + level.openSets.length + level.focus.openBraces

/-- What a step of a level must be when a block around it waits: a level that agrees with the
block, or a fault that is not in the balance. -/
def Balanced (block : Block) : Outcome → Prop
  | .ok (next, _) => Agrees block next ∧ next.focus.Live
  | .error error => ¬ error.Unbalanced

theorem balanced_flush {block : Block} (pending : Pending) {next : Level}
    (agrees : Agrees block next) (live : next.focus.Live) :
    Balanced block (do
      let entry ← pending.flush
      return (next, entry)) := by
  cases pending with
  | nothing => exact ⟨agrees, live⟩
  | named name start ended => exact ⟨agrees, live⟩
  | called name start arguments => exact id

section

variable {block next : Block} {openSets : List Position} {character : Char} {here : Position}

theorem balanced_stepBetween {pending : Pending}
    (agrees : Agrees block ⟨openSets, .between pending⟩)
    (waiting : block.step character here = .ok (.waiting next)) (there : Position) :
    Balanced next (stepBetween openSets pending character there) := by
  obtain ⟨plain, openBraces⟩ := agrees
  obtain ⟨_, stillOpen⟩ := Block.stays_open_of_step waiting
  have plain : block.surroundings = .plain := plain
  have openBraces : block.openBraces = 1 + openSets.length := openBraces
  cases Block.eq_extend_of_step waiting
  have agreesOf {level : Level}
      (surroundings : Surroundings.plain.after character = level.focus.surroundings)
      (braces : block.bracesAfter character =
        1 + level.openSets.length + level.focus.openBraces) :
      Agrees (block.extend character) level :=
    ⟨(congrArg (Surroundings.after · character) plain).trans surroundings, braces⟩
  simp only [stepBetween]
  split
  · next comment =>
      subst comment
      exact ⟨agreesOf rfl ((if_pos plain).trans openBraces), trivial⟩
  next notComment =>
  split
  · next comma =>
      subst comma
      exact balanced_flush pending (agreesOf rfl ((if_pos plain).trans openBraces)) trivial
  split
  · next blank =>
      obtain ⟨stays, braces⟩ := OnePass.Reader.seen_ordinary plain notComment
        (Text.ne_of_accepts blank (by decide)) (Text.ne_of_accepts blank (by decide))
        (Text.ne_of_accepts blank (by decide))
      exact ⟨agreesOf stays (braces.trans openBraces), trivial⟩
  split
  · next parenthesis =>
      subst parenthesis
      cases pending with
      | nothing => exact id
      | called name start arguments => exact id
      | named name start ended =>
          exact ⟨agreesOf rfl ((if_pos plain).trans openBraces), trivial⟩
  next notParenthesis =>
  split
  · next opening =>
      subst opening
      have more : block.bracesAfter '{' = 1 + openSets.length + 1 := by
        rw [← openBraces]
        exact if_pos plain
      have entered (name : String) (arguments : Arguments) :
          Balanced (block.extend '{')
            (.ok (⟨openSets, .block name arguments (.opened there)⟩, none)) :=
        ⟨agreesOf rfl more, Nat.le_refl 1⟩
      cases pending with
      | nothing => exact ⟨agreesOf rfl more, trivial⟩
      | named name start ended => exact entered name .empty
      | called name start arguments => exact entered name arguments
  next notOpening =>
  split
  · next closing =>
      subst closing
      have fewer : block.bracesAfter '}' = openSets.length := by
        rw [Block.bracesAfter, if_pos plain, openBraces]
        exact Nat.add_sub_cancel_left 1 openSets.length
      cases openSets with
      | nil => exact absurd fewer stillOpen
      | cons innermost outer =>
          refine balanced_flush pending (agreesOf rfl ?_) trivial
          rw [fewer, List.length_cons, Nat.add_comm]
          rfl
  next notClosing =>
  obtain ⟨stays, braces⟩ :=
    OnePass.Reader.seen_ordinary plain notComment notParenthesis notOpening notClosing
  have goesOn (pending : Pending) :
      Agrees (block.extend character) ⟨openSets, .between pending⟩ :=
    agreesOf stays (braces.trans openBraces)
  split
  · cases pending with
    | nothing => exact balanced_flush .nothing (goesOn _) trivial
    | called name start arguments => exact id
    | named name start ended =>
        cases ended with
        | false => exact ⟨goesOn _, trivial⟩
        | true => exact balanced_flush (.named name start true) (goesOn _) trivial
  · exact id

theorem balanced_arguments {name : String} {start : Position} {list : ArgumentList}
    (agrees : Agrees block ⟨openSets, .arguments name start list⟩)
    (waiting : block.step character here = .ok (.waiting next)) (there : Position) :
    Balanced next (step ⟨openSets, .arguments name start list⟩ character there) := by
  obtain ⟨listed, openBraces⟩ := agrees
  obtain ⟨accepted, _⟩ := Block.stays_open_of_step waiting
  have listed : block.surroundings = list.slot.surroundings := listed
  have notPlain : block.surroundings ≠ .plain := by
    rw [listed]
    exact list.slot.surroundings_ne_plain
  have notNewline : character ≠ '\n' := by
    intro newline
    rw [listed] at accepted
    exact accepted ⟨newline, list.slot.inArguments_surroundings⟩
  cases Block.eq_extend_of_step waiting
  have braces : (block.extend character).openBraces = 1 + openSets.length :=
    (Block.bracesAfter_of_ne_plain notPlain character).trans openBraces
  have surroundings : (block.extend character).surroundings =
      list.slot.surroundings.after character := congrArg (Surroundings.after · character) listed
  simp only [step]
  cases stepped : list.step character there with
  | error error => exact ArgumentList.not_unbalanced_of_step notNewline stepped
  | ok progress =>
      obtain ⟨_, after⟩ := ArgumentList.surroundings_step stepped
      cases progress with
      | waiting list => exact ⟨⟨surroundings.trans after.symm, braces⟩, trivial⟩
      | closed arguments => exact ⟨⟨surroundings.trans after.symm, braces⟩, trivial⟩

theorem balanced_block {name : String} {arguments : Arguments} {inner : Block}
    (agrees : Agrees block ⟨openSets, .block name arguments inner⟩)
    (live : 1 ≤ inner.openBraces)
    (waiting : block.step character here = .ok (.waiting next)) (there : Position) :
    Balanced next (step ⟨openSets, .block name arguments inner⟩ character there) := by
  obtain ⟨alike, openBraces⟩ := agrees
  obtain ⟨accepted, _⟩ := Block.stays_open_of_step waiting
  have alike : block.surroundings = inner.surroundings := alike
  have openBraces : block.openBraces = 1 + openSets.length + inner.openBraces := openBraces
  cases Block.eq_extend_of_step waiting
  have surroundings : (block.extend character).surroundings =
      inner.surroundings.after character := congrArg (Surroundings.after · character) alike
  have braces : (block.extend character).openBraces =
      1 + openSets.length + inner.bracesAfter character := by
    simp only [Block.extend, Block.bracesAfter, alike, openBraces]
    split
    · split
      · omega
      · split <;> omega
    · rfl
  simp only [step]
  cases stepped : inner.step character there with
  | error error =>
      -- Only a line feed is refused, and the block around has refused it before.
      simp only [Block.step, ← alike, if_neg accepted] at stepped
      split at stepped <;> cases stepped
  | ok progress =>
      cases progress with
      | waiting extended =>
          obtain ⟨_, stillOpen⟩ := Block.stays_open_of_step stepped
          cases Block.eq_extend_of_step stepped
          exact ⟨⟨surroundings, braces⟩, Nat.one_le_iff_ne_zero.mpr stillOpen⟩
      | closed text =>
          have noneOpen := Block.noneOpen_of_step stepped
          obtain ⟨plain, rfl, _⟩ := Block.closing_of_noneOpen live noneOpen
          rw [noneOpen] at braces
          rw [plain] at surroundings
          exact ⟨⟨surroundings, braces⟩, trivial⟩

theorem balanced_comment {pending : Pending}
    (agrees : Agrees block ⟨openSets, .comment pending⟩)
    (waiting : block.step character here = .ok (.waiting next)) (there : Position) :
    Balanced next (step ⟨openSets, .comment pending⟩ character there) := by
  obtain ⟨comment, openBraces⟩ := agrees
  have comment : block.surroundings = .comment := comment
  cases Block.eq_extend_of_step waiting
  have braces : (block.extend character).openBraces = 1 + openSets.length :=
    (Block.bracesAfter_of_ne_plain (by rw [comment]; nofun) character).trans openBraces
  have surroundings : (block.extend character).surroundings =
      Surroundings.comment.after character := congrArg (Surroundings.after · character) comment
  simp only [step]
  split
  · next newline =>
      subst newline
      exact ⟨⟨surroundings, braces⟩, trivial⟩
  · next inside => exact ⟨⟨surroundings.trans (if_neg inside), braces⟩, trivial⟩

end

section

variable {block next last : Block} {level after : Level} {here there : Position}

/-- As long as a block waits, a level that agrees with it goes on agreeing or finds a fault that is
not in the balance. -/
theorem balanced_step {character : Char} (agrees : Agrees block level) (live : level.focus.Live)
    (waiting : block.step character here = .ok (.waiting next)) (there : Position) :
    Balanced next (level.step character there) := by
  obtain ⟨openSets, focus⟩ := level
  cases focus with
  | between pending => exact balanced_stepBetween agrees waiting there
  | comment pending => exact balanced_comment agrees waiting there
  | arguments name start list => exact balanced_arguments agrees waiting there
  | block name arguments inner =>
      exact balanced_block agrees live waiting there

theorem agrees_start (openedAt : Position) : Agrees (.opened openedAt) start := ⟨rfl, rfl⟩

theorem agrees_feed {characters : List Char} (agrees : Agrees block level) (live : level.focus.Live)
    (blockFed : block.feed here characters = some last)
    (levelFed : level.feed there characters = some after) : Agrees last after := by
  induction characters generalizing block level here there with
  | nil =>
      cases blockFed
      cases levelFed
      exact agrees
  | cons character rest ih =>
      simp only [Block.feed] at blockFed
      split at blockFed
      · next extended waiting =>
          have balanced := balanced_step agrees live waiting there
          simp only [feed] at levelFed
          split at levelFed
          · next reached entry stepped =>
              rw [stepped] at balanced
              exact ih balanced.1 balanced.2 blockFed levelFed
          · cases levelFed
      · cases blockFed

/-- A level that agrees with a block in front of its closing brace has nothing open. -/
theorem not_unbalanced_of_finish {closing : Char} {text : String} {error : ParseError}
    (agrees : Agrees block level) (live : level.focus.Live)
    (closed : block.step closing here = .ok (.closed text))
    (failed : level.finish = .error error) : ¬ error.Unbalanced := by
  obtain ⟨openSets, focus⟩ := level
  obtain ⟨surroundings, openBraces⟩ := agrees
  have stillOpen : 1 ≤ block.openBraces := by omega
  obtain ⟨plain, -, lastOne⟩ :=
    Block.closing_of_noneOpen stillOpen (Block.noneOpen_of_step closed)
  rw [plain] at surroundings
  cases focus with
  | comment pending => cases surroundings
  | arguments name start list => exact absurd surroundings.symm list.slot.surroundings_ne_plain
  | block name arguments inner =>
      have inside : 1 ≤ inner.openBraces := live
      simp only [Focus.openBraces] at openBraces
      omega
  | between pending =>
      have openBraces : block.openBraces = 1 + openSets.length := openBraces
      obtain rfl : openSets = [] := List.eq_nil_of_length_eq_zero (by omega)
      cases pending <;> cases failed
      exact id

theorem not_unbalanced_of_scan {characters : List Char} {closing : Char} {place : Position}
    {text : String} {error : ParseError} (agrees : Agrees block level) (live : level.focus.Live)
    (fed : block.feed here characters = some last)
    (closed : last.step closing place = .ok (.closed text))
    (fault : (level.scan there characters).fault = some error) : ¬ error.Unbalanced := by
  induction characters generalizing block level here there with
  | nil =>
      cases fed
      simp only [scan] at fault
      split at fault
      · next entry _ => cases entry <;> cases fault
      · next failed =>
          cases fault
          exact not_unbalanced_of_finish agrees live closed failed
  | cons character rest ih =>
      simp only [Block.feed] at fed
      split at fed
      · next extended waiting =>
          have balanced := balanced_step agrees live waiting there
          simp only [scan] at fault
          split at fault
          · next stepped =>
              rw [stepped] at balanced
              exact ih balanced.1 balanced.2 fed fault
          · next stepped =>
              rw [stepped] at balanced
              exact ih balanced.1 balanced.2 fed fault
          · next stepped =>
              rw [stepped] at balanced
              cases fault
              exact balanced
      · cases fed

end

end Level

theorem Block.ClosesWith.not_unbalanced {openedAt : Position} {text : String}
    (closes : Block.ClosesWith openedAt text) {here : Position} {error : ParseError}
    (fault : (Level.start.scan here text.toList).fault = some error) : ¬ error.Unbalanced := by
  obtain ⟨last, closing, fed, closed⟩ := closes
  exact Level.not_unbalanced_of_scan (Level.agrees_start openedAt) trivial fed closed fault

/-! ## Levels in closed blocks -/

/-- The levels of a text: its own, and those of the blocks that are completed in them. -/
inductive Encloses (origin : Position) (text : String) : Position → String → Prop
  | itself : Encloses origin text origin text
  | block {outer within : Position} {around body name : String} {arguments : Arguments}
      (encloses : Encloses origin text outer around)
      (member : .block name arguments within body ∈
        (Level.start.scan outer around.toList).entries) : Encloses origin text within body

theorem closesWith_of_mem_scan {here origin : Position} {characters : List Char}
    {name text : String} {arguments : Arguments}
    (member : .block name arguments origin text ∈ (Level.start.scan here characters).entries) :
    ∃ openedAt, origin = openedAt.advance '{' ∧ Block.ClosesWith openedAt text :=
  Level.accepted_of_mem_scan (Level.collects_start here) member

theorem Encloses.closesWith {openedAt within : Position} {text body : String}
    (encloses : Encloses (openedAt.advance '{') text within body)
    (closes : Block.ClosesWith openedAt text) :
    ∃ opening, within = opening.advance '{' ∧ Block.ClosesWith opening body := by
  cases encloses with
  | itself => exact ⟨openedAt, rfl, closes⟩
  | block _ member => exact closesWith_of_mem_scan member

/-- What is wrong with the balance of a text shows in its outermost level. -/
theorem fault_of_unbalanced {limit : DepthLimit} {depth : Nat} {origin : Position} {text : String}
    {error : ParseError} (failed : parseLevel limit depth origin text = .error error)
    (unbalanced : error.Unbalanced) :
    (Level.start.scan origin text.toList).fault = some error := by
  rw [parseLevel_eq] at failed
  split at failed
  · cases failed
    exact unbalanced.elim
  rcases bind_eq_error_iff.mp failed with unread | ⟨selections, _, faulty⟩
  · obtain ⟨entry, member, unread⟩ := exists_of_mapM_eq_error unread
    cases entry with
    | leaf name => cases unread
    | block name arguments within body =>
        obtain ⟨openedAt, _, closes⟩ := closesWith_of_mem_scan member
        rcases bind_eq_error_iff.mp unread with inside | ⟨_, _, returned⟩
        · exact absurd unbalanced (closes.not_unbalanced (fault_of_unbalanced inside unbalanced))
        · cases returned
  · cases fault : (Level.start.scan origin text.toList).fault with
    | none =>
        rw [fault] at faulty
        cases faulty
    | some found =>
        rw [fault] at faulty
        cases faulty
        rfl
termination_by text.length
decreasing_by exact Level.length_text_lt_of_mem_scan ‹_›

/-- In the text of a closed block, reading finds nothing wrong with the balance, at whatever depth:
such an error of a parse is one of its outermost level. Every block that a level completes is
closed, and the level in a block agrees with the block as far as it reads without a fault. -/
theorem balance_within_blocks (limit : DepthLimit) :
    (∀ openedAt text, Block.ClosesWith openedAt text →
      (∀ within body error, Encloses (openedAt.advance '{') text within body →
        (Level.start.scan within body.toList).fault = some error → ¬ error.Unbalanced) ∧
      ∀ depth error, parseLevel limit depth (openedAt.advance '{') text = .error error →
        ¬ error.Unbalanced) ∧
    (∀ text error, parse limit text = .error error → error.Unbalanced →
      (Level.start.scan .start text.toList).fault = some error) ∧
    (∀ here characters name arguments origin text,
      .block name arguments origin text ∈ (Level.start.scan here characters).entries →
      ∃ openedAt, origin = openedAt.advance '{' ∧ Block.ClosesWith openedAt text) ∧
    ∀ openedAt characters block level,
      (Block.opened openedAt).feed (openedAt.advance '{') characters = some block →
      Level.start.feed (openedAt.advance '{') characters = some level →
      Level.Agrees block level := by
  refine ⟨?_, ?_, ?_, ?_⟩
  · intro openedAt text closes
    constructor
    · intro within body error encloses fault
      obtain ⟨_, _, closes⟩ := encloses.closesWith closes
      exact closes.not_unbalanced fault
    · intro depth error failed unbalanced
      exact closes.not_unbalanced (fault_of_unbalanced failed unbalanced) unbalanced
  · intro text error failed unbalanced
    exact fault_of_unbalanced failed unbalanced
  · intro here characters name arguments origin text member
    exact closesWith_of_mem_scan member
  · intro openedAt characters block level blockFed levelFed
    exact Level.agrees_feed (Level.agrees_start openedAt) trivial blockFed levelFed

/-- A block whose comment and quoted value hold braces, and whose inner block is at fault. -/
def faultyBlock : String := " # \x7d\n c (k: \"\x7d\") \x7b d (k: 1, k: 2) \x7b\x7d \x7d "

theorem balance_within_faultyBlock :
    Block.ClosesWith ⟨1, 3⟩ faultyBlock ∧
      parseLevel .unlimited 2 ⟨1, 4⟩ faultyBlock = .error (.duplicateArgument "k" ⟨2, 28⟩) ∧
      ¬ (ParseError.duplicateArgument "k" ⟨2, 28⟩).Unbalanced ∧
      parse .unlimited "a \x7b b" = .error (.unterminatedBrace ⟨1, 3⟩) ∧
      (Level.start.scan .start "a \x7b b".toList).fault = some (.unterminatedBrace ⟨1, 3⟩) := by
  have closes : Block.ClosesWith ⟨1, 3⟩ faultyBlock :=
    ⟨⟨⟨1, 3⟩, ⟨1, 4⟩, faultyBlock, 1, .plain⟩, '}', by decide +kernel, by rfl⟩
  have outer : Level.start.scan ⟨1, 4⟩ faultyBlock.toList =
      ⟨[.block "c" (Dict.empty.insert "k" (.text "\x7d")) ⟨2, 14⟩
        " d (k: 1, k: 2) \x7b\x7d "], none⟩ := by decide +kernel
  have inner : Level.start.scan ⟨2, 14⟩ " d (k: 1, k: 2) \x7b\x7d ".toList =
      ⟨[], some (.duplicateArgument "k" ⟨2, 28⟩)⟩ := by decide +kernel
  have inside : parseLevel .unlimited 2 ⟨1, 4⟩ faultyBlock =
      .error (.duplicateArgument "k" ⟨2, 28⟩) := by
    rw [parseLevel_unlimited, outer]
    simp only [readScan, List.mapM_cons, readEntry]
    rw [parseLevel_unlimited, inner]
    rfl
  have outside : parse .unlimited "a \x7b b" = .error (.unterminatedBrace ⟨1, 3⟩) := by
    rw [parse, parseLevel_unlimited]
    rfl
  obtain ⟨within, outermost, _⟩ := balance_within_blocks .unlimited
  exact ⟨closes, inside, (within _ _ closes).2 2 _ inside, outside, outermost _ _ outside trivial⟩

end FieldQuery.Query
