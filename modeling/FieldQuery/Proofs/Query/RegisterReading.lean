import FieldQuery.Proofs.Query.LevelRegisters
import Mathlib.Data.List.Induction

/-!
# Reading in registers

A run of registers describes a level after every character, so what the registers know always fits
together. An open block holds just the text behind its brace. That text is shorter than what has
been read, hence a budget beyond the length of a text suffices for all blocks within it, and reading
in registers is reading levels.
-/

set_option autoImplicit false

namespace FieldQuery.Query

open Fallible

namespace Level

theorem feed_append (level : Level) (here : Position) (front back : List Char) :
    level.feed here (front ++ back) =
      (level.feed here front).bind fun next => next.feed (here.after front) back := by
  induction front generalizing level here with
  | nil => rfl
  | cons character front ih =>
      simp only [List.cons_append, feed]
      split
      · next after entry stepped => exact ih after (here.advance character)
      · rfl

theorem feed_concat {level last : Level} {here : Position} {front : List Char} {character : Char}
    {outcome : Level × Option Entry} (fed : level.feed here front = some last)
    (stepped : last.step character (here.after front) = .ok outcome) :
    level.feed here (front ++ [character]) = some outcome.1 := by
  rw [feed_append, fed, Option.bind_some]
  simp only [feed, stepped]

section

variable {character : Char} {here : Position} {openSets outside : List Position} {name : String}
  {arguments : Arguments} {block : Block} {entry : Option Entry}

theorem opened_of_stepBetween {pending : Pending}
    (stepped : stepBetween outside pending character here =
      .ok (⟨openSets, .block name arguments block⟩, entry)) :
    character = '{' ∧ block = .opened here := by
  simp only [stepBetween] at stepped
  split at stepped
  · cases stepped
  split at stepped
  · cases pending <;> cases stepped
  split at stepped
  · cases stepped
  split at stepped
  · cases pending <;> cases stepped
  split at stepped
  · next opening =>
      cases pending <;> cases stepped
      · exact ⟨opening, rfl⟩
      · exact ⟨opening, rfl⟩
  split at stepped
  · cases pending <;> cases outside <;> cases stepped
  split at stepped
  · cases pending with
    | nothing => cases stepped
    | called => cases stepped
    | named name start ended => cases ended <;> cases stepped
  · cases stepped

/-- A block is open behind a character if the character opens it or belongs to it. -/
theorem block_of_step {level : Level}
    (stepped : level.step character here = .ok (⟨openSets, .block name arguments block⟩, entry)) :
    (character = '{' ∧ block = .opened here ∧ ∃ pending, level.focus = .between pending) ∨
      ∃ before, level.focus = .block name arguments before ∧
        before.step character here = .ok (.waiting block) := by
  obtain ⟨outside, focus⟩ := level
  cases focus with
  | between pending =>
      obtain ⟨opening, opened⟩ := opened_of_stepBetween stepped
      exact .inl ⟨opening, opened, pending, rfl⟩
  | comment pending =>
      simp only [step] at stepped
      split at stepped <;> cases stepped
  | arguments name start list =>
      obtain ⟨progress, _, returned⟩ := bind_eq_ok_iff.mp stepped
      cases progress <;> cases returned
  | block name arguments before =>
      obtain ⟨progress, waiting, returned⟩ := bind_eq_ok_iff.mp stepped
      cases progress with
      | closed text => cases returned
      | waiting extended =>
          cases returned
          exact .inr ⟨before, rfl, waiting⟩

end

end Level

namespace LevelRegisters

section

variable {nested : BlockReading} {origin : Position} {fed : List Char}
  {registers next : LevelRegisters}

theorem feed_concat (nested : BlockReading) (registers : LevelRegisters) (front : List Char)
    (character : Char) :
    feed nested registers (front ++ [character]) =
      feed nested registers front >>= fun last => last.step nested character := by
  rw [feed, List.foldlM_append]
  congr 1
  funext last
  exact bind_pure _

/-- The block that is open behind a text holds all that stands behind the brace that opened it. -/
def HoldsText (nested : BlockReading) (origin : Position) (fed : List Char) (block : Block) :
    Prop :=
  ∃ front before opening,
    fed = front ++ '{' :: block.text.toList ∧
    feed nested (start origin) front = .ok before ∧ before.block = none ∧
    feed nested (start origin) (front ++ ['{']) = .ok opening ∧
    opening.block = some (.opened (origin.after front)) ∧
    block.openedAt = origin.after front ∧ block.origin = origin.after (front ++ ['{'])

theorem HoldsText.extend {block : Block} (holds : HoldsText nested origin fed block)
    (character : Char) : HoldsText nested origin (fed ++ [character]) (block.extend character) := by
  obtain ⟨front, before, opening, rfl, reached⟩ := holds
  refine ⟨front, before, opening, ?_, reached⟩
  rw [Block.toList_text_extend, List.append_assoc, List.cons_append]

theorem HoldsText.length_lt {block : Block} (holds : HoldsText nested origin fed block) :
    block.text.length < fed.length := by
  obtain ⟨front, _, _, rfl, _⟩ := holds
  simp only [List.length_append, List.length_cons, String.length_toList]
  omega

/-- What is known behind a text that is read without a fault. -/
structure Reached (nested : BlockReading) (origin : Position) (fed : List Char)
    (registers : LevelRegisters) (level : Level) : Prop where
  levelFed : Level.start.feed origin fed = some level
  describes : Describes (origin.after fed) registers.selections registers level
  block : ∀ block, registers.block = some block → HoldsText nested origin fed block

theorem reached_start (nested : BlockReading) (origin : Position) :
    Reached nested origin [] (start origin) .start := ⟨rfl, describes_start origin, nofun⟩

variable {level : Level} {character : Char}

theorem Reached.step (reached : Reached nested origin fed registers level)
    (fedBefore : feed nested (start origin) fed = .ok registers)
    (stepped : registers.step nested character = .ok next) :
    ∃ after, Reached nested origin (fed ++ [character]) next after := by
  obtain ⟨levelFed, describes, holds⟩ := reached
  have alike := step_alike describes nested character
  rw [stepped] at alike
  generalize levelStepped : level.step character (origin.after fed) = outcome at alike
  cases alike with
  | @goesOn after entry added _ gave later =>
      refine ⟨after, Level.feed_concat levelFed levelStepped, ?_, ?_⟩
      · rw [Position.after_append, later.selections_eq]
        exact later
      · intro block live
        have focus := later.focus_of_block live
        obtain ⟨openSets, _⟩ := after
        cases focus
        -- The character opens the block, or it belongs to the block that was open before.
        rcases Level.block_of_step levelStepped with
          ⟨rfl, rfl, pending, rests⟩ | ⟨inner, around, waiting⟩
        · have fedBehind : feed nested (start origin) (fed ++ ['{']) = .ok next := by
            rw [feed_concat, fedBefore]
            exact stepped
          refine ⟨fed, registers, next, rfl, fedBefore, describes.block_of_between rests,
            fedBehind, live, rfl, ?_⟩
          rw [Position.after_append]
          rfl
        · cases Block.eq_extend_of_step waiting
          exact (holds inner (describes.block_of_focus around)).extend character

theorem exists_reached (ran : feed nested (start origin) fed = .ok registers) :
    ∃ level, Reached nested origin fed registers level := by
  induction fed using List.reverseRecOn generalizing registers with
  | nil =>
      cases ran
      exact ⟨.start, reached_start nested origin⟩
  | append_singleton front character ih =>
      rw [feed_concat] at ran
      obtain ⟨before, fedBefore, stepped⟩ := bind_eq_ok_iff.mp ran
      obtain ⟨level, reached⟩ := ih fedBefore
      exact reached.step fedBefore stepped

/-! ## Whole texts -/

theorem finish_rest {position : Position} {selections : List Selection} {name : String}
    {start : Position} {ended inComment : Bool} {arguments : Option Arguments} {pending : Pending}
    {openSets : List Position} (names : Names name start ended arguments pending)
    (limit : DepthLimit) (depth : Nat) :
    finish ⟨position, selections, name, start, ended, arguments, none, none, openSets, inComment⟩ =
      (readScan limit depth (Level.scan ⟨openSets, .between pending⟩ position [])).map
        (selections ++ ·) := by
  cases names with
  | called nonempty => rfl
  | nothing =>
      cases openSets with
      | nil => exact congrArg Except.ok (List.append_nil selections).symm
      | cons innermost outer => rfl
  | named nonempty =>
      rw [finish, flushLeaf_named nonempty]
      cases openSets with
      | nil => rfl
      | cons innermost outer => rfl

theorem finish_alike {position : Position} {selections : List Selection}
    (describes : Describes position selections registers level) (limit : DepthLimit) (depth : Nat) :
    registers.finish =
      (readScan limit depth (level.scan position [])).map (selections ++ ·) := by
  cases describes with
  | between names => exact finish_rest names limit depth
  | comment names settled => exact finish_rest names limit depth
  | arguments nonempty => rfl
  | block nonempty live => rfl

def ReadsBlocks (nested : BlockReading) (limit : DepthLimit) (depth : Nat) (entries : List Entry) :
    Prop :=
  ∀ name arguments within body, .block name arguments within body ∈ entries →
    nested within body = (parseLevel limit (depth + 1) within body).mapError .fault

theorem gives_eq_readEntry {limit : DepthLimit} {depth : Nat} {entry : Entry} {later : List Entry}
    (reads : ReadsBlocks nested limit depth (entry :: later)) :
    gives nested (some entry) =
      ((readEntry limit depth entry).map fun selection => [selection]).mapError .fault := by
  cases entry with
  | leaf name => rfl
  | block name arguments within body =>
      rw [gives, reads name arguments within body List.mem_cons_self, readEntry]
      cases parseLevel limit (depth + 1) within body <;> rfl

theorem feed_finish_alike {position : Position} {selections : List Selection} {limit : DepthLimit}
    {depth : Nat} (rest : List Char) (describes : Describes position selections registers level)
    (reads : ReadsBlocks nested limit depth (level.scan position rest).entries) :
    (feed nested registers rest >>= fun last => last.finish.mapError .fault) =
      ((readScan limit depth (level.scan position rest)).map (selections ++ ·)).mapError
        .fault := by
  induction rest generalizing registers level position selections with
  | nil =>
      rw [← finish_alike describes]
      rfl
  | cons character rest ih =>
      have alike := step_alike describes nested character
      simp only [Level.scan] at reads ⊢
      rw [feed, List.foldlM_cons]
      generalize registers.step nested character = stepped at alike
      generalize level.step character position = outcome at alike reads
      cases alike with
      | refused => rfl
      | @halts next entry halt failed =>
          cases entry with
          | none => cases failed
          | some entry =>
              rw [gives_eq_readEntry reads] at failed
              simp only [readScan_prepend]
              cases read : readEntry limit depth entry with
              | error cause =>
                  rw [read] at failed
                  cases failed
                  rfl
              | ok selection =>
                  rw [read] at failed
                  cases failed
      | @goesOn next entry added after gave later =>
          cases entry with
          | none =>
              cases gave
              rw [List.append_nil] at later
              exact ih later reads
          | some entry =>
              rw [gives_eq_readEntry reads] at gave
              simp only [readScan_prepend]
              cases read : readEntry limit depth entry with
              | error cause =>
                  rw [read] at gave
                  cases gave
              | ok selection =>
                  rw [read] at gave
                  cases gave
                  refine (ih later fun name arguments within body member =>
                    reads name arguments within body (List.mem_cons_of_mem _ member)).trans ?_
                  cases readScan limit depth (next.scan (position.advance character) rest) with
                  | error cause => rfl
                  | ok inner =>
                      exact congrArg Except.ok (List.append_assoc selections [selection] inner)

/-- With a budget beyond the length of a text, reading in registers is reading levels: it stops for
a fault of the text and for nothing else. -/
theorem read_eq_parseLevel {limit : DepthLimit} {budget depth : Nat} {origin : Position}
    {text : String} (enough : text.length < budget) :
    read limit budget depth origin text =
      (parseLevel limit depth origin text).mapError .fault := by
  induction budget generalizing depth origin text with
  | zero => cases enough
  | succ budget ih =>
      rw [read, parseLevel_eq]
      split
      · rfl
      · have reads : ReadsBlocks (read limit budget (depth + 1)) limit depth
            (Level.start.scan origin text.toList).entries := by
          intro name arguments within body member
          -- What is left of the budget is beyond the length of a shorter text.
          have shorter := Level.length_text_lt_of_mem_scan member
          rw [String.length_toList] at shorter
          exact ih (by omega)
        refine (feed_finish_alike text.toList (describes_start origin) reads).trans ?_
        cases readScan limit depth (Level.start.scan origin text.toList) <;> rfl

/-- Registers that fit together stop for a fault, or because the text of their block cannot be
read. -/
theorem halt_of_step {halt : Halt} (coherent : registers.Coherent)
    (stopped : registers.step nested character = .error halt) :
    (∃ cause, halt = .fault cause) ∨
      ∃ block, registers.block = some block ∧ nested block.origin block.text = .error halt := by
  have faulty {Value : Type} {outcome : Except ParseError Value}
      (failed : outcome.mapError Halt.fault = .error halt) : ∃ cause, halt = .fault cause := by
    cases outcome with
    | error cause =>
        cases failed
        exact ⟨cause, rfl⟩
    | ok value => cases failed
  simp only [step] at stopped
  split at stopped
  · next block live =>
      rw [stepBlock_of_live (coherent.openBraces block live)] at stopped
      rcases bind_eq_error_iff.mp stopped with refused | ⟨progress, _, returned⟩
      · exact .inl (faulty refused)
      · cases progress with
        | waiting extended => cases returned
        | closed text =>
            simp only [closeBlock, live] at returned
            rcases bind_eq_error_iff.mp returned with unread | ⟨inner, _, closed⟩
            · exact .inr ⟨block, live, unread⟩
            · cases closed
  · split at stopped
    · split at stopped <;> cases stopped
    split at stopped
    · rcases bind_eq_error_iff.mp stopped with refused | ⟨progress, _, returned⟩
      · exact .inl (faulty refused)
      · cases progress <;> cases returned
    · exact .inl (faulty stopped)

end

/-- Behind every text that is read without a fault, whatever reads the blocks in it, the registers
fit together and describe the level that is read. An open block holds just the text behind its
brace. Nothing but a fault of the next character, or of reading the text of the open block, stops
the reading there. As that text is the shorter one, a budget beyond the length of a text suffices. -/
theorem feed_coherent (origin : Position) :
    (∀ nested fed registers, feed nested (start origin) fed = .ok registers →
      registers.Coherent ∧
      (∃ level, Level.start.feed origin fed = some level ∧
        Describes (origin.after fed) registers.selections registers level) ∧
      (∀ block, registers.block = some block →
        HoldsText nested origin fed block ∧ block.text.length < fed.length) ∧
      ∀ character halt, registers.step nested character = .error halt →
        (∃ cause, halt = .fault cause) ∨
          ∃ block, registers.block = some block ∧
            nested block.origin block.text = .error halt) ∧
    ∀ limit budget depth text, text.length < budget →
      read limit budget depth origin text =
        (parseLevel limit depth origin text).mapError .fault := by
  constructor
  · intro nested fed registers ran
    obtain ⟨level, reached⟩ := exists_reached ran
    refine ⟨reached.describes.coherent, ⟨level, reached.levelFed, reached.describes⟩, ?_, ?_⟩
    · intro block live
      have holds := reached.block block live
      exact ⟨holds, holds.length_lt⟩
    · intro character halt stopped
      exact halt_of_step reached.describes.coherent stopped
  · intro limit budget depth text enough
    exact read_eq_parseLevel enough

def openBlockText : String := "v, a \x7b b \x7d films\n(p: 1) \x7b # \x7d\n c"

theorem feed_coherent_openBlockText :
    ∃ registers block,
      feed (read .unlimited 3 2) (start .start) openBlockText.toList = .ok registers ∧
        registers.selections = [.leaf "v", .branch "a" .empty [.leaf "b"]] ∧
        registers.Coherent ∧
        registers.block = some block ∧ block.text = " # \x7d\n c" ∧ block.origin = ⟨2, 9⟩ ∧
        HoldsText (read .unlimited 3 2) .start openBlockText.toList block ∧
        "a\x7bb\x7d".length < 5 ∧
        (parseLevel .unlimited 1 .start "a\x7bb\x7d").mapError Halt.fault =
          .ok [.branch "a" .empty [.leaf "b"]] := by
  have fed : feed (read .unlimited 3 2) (start .start) openBlockText.toList =
      .ok ⟨⟨3, 3⟩, [.leaf "v", .branch "a" .empty [.leaf "b"]], "films", ⟨1, 12⟩, true,
        some (Dict.empty.insert "p" (.integer 1)), none,
        some ⟨⟨2, 8⟩, ⟨2, 9⟩, " # \x7d\n c", 1, .plain⟩, [], false⟩ := by
    rfl
  obtain ⟨reached, whole⟩ := feed_coherent .start
  obtain ⟨coherent, _, holds, _⟩ := reached _ _ _ fed
  refine ⟨_, _, fed, rfl, coherent, rfl, rfl, rfl, (holds _ rfl).1, by decide, ?_⟩
  rw [← whole .unlimited 5 1 "a\x7bb\x7d" (by decide)]
  rfl

end LevelRegisters

end FieldQuery.Query
