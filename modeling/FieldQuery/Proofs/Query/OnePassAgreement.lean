import FieldQuery.Proofs.DepthLimit
import FieldQuery.Proofs.Query.BlockAgreement
import FieldQuery.Proofs.Query.LevelEntries

/-!
# Collecting a block and reading it in place

A level collects the text of a block and has it read again, one level deeper, when the block is
closed. `parse_eq_ok_iff_read` says that nothing is accepted, refused or built differently when
the block is read in place instead.

The proof follows a level with a reader, character by character. While a block is open, the frames
of its own reader lie on top of the frame of its branch. A reader that refuses a character leaves
the level with a block that can no longer be read, so the level fails as well, though later.
-/

set_option autoImplicit false

namespace FieldQuery.Query

namespace OnePass

/-- Reading a level with its blocks collected gives what reading it in one pass gives. -/
def ReadsAlike (limit : DepthLimit) (depth : Nat) (origin : Position) (text : String) : Prop :=
  (parseLevel limit depth origin text).toOption =
    if limit.exceededBy depth then none else readLevel limit depth origin text

def sets (openSets : List Position) : List Frame := openSets.map fun _ => .set

theorem blocks_sets (openSets : List Position) : blocks (sets openSets) = 0 := by
  induction openSets with
  | nil => rfl
  | cons opening openSets ih => exact ih

/-- A block whose characters so far are read, one level deeper, up to a reader that stands at
`here`. -/
structure Collects (limit : DepthLimit) (depth : Nat) (block : Block) (inner : Reader)
    (here : Position) : Prop where
  allowed : limit.exceededBy depth = false
  ran : Reader.start.run limit depth block.origin block.text.toList = some inner
  stands : block.origin.after block.text.toList = here
  watches : Watches block inner

/-- A reader that has read all characters of a level so far. The level's selections so far are
`selections`, and the open block is the frame above its nameless sets. -/
inductive Follows (limit : DepthLimit) (depth : Nat) (here : Position) :
    Level → List Selection → Reader → Prop where
  | between {openSets selections pending} :
      Follows limit depth here ⟨openSets, .between pending⟩ selections
        ⟨sets openSets, selections, .between pending⟩
  | comment {openSets selections pending} :
      Follows limit depth here ⟨openSets, .comment pending⟩ selections
        ⟨sets openSets, selections, .comment pending⟩
  | arguments {openSets selections name start list} :
      Follows limit depth here ⟨openSets, .arguments name start list⟩ selections
        ⟨sets openSets, selections, .arguments name start list⟩
  | block {openSets selections name arguments block inner} :
      Collects limit (depth + 1) block inner here →
      Follows limit depth here ⟨openSets, .block name arguments block⟩ selections
        (inner.under (.branch name arguments selections :: sets openSets))

/-- A block at a depth that cannot be read, whatever characters follow. -/
def Unreadable (limit : DepthLimit) (depth : Nat) (block : Block) : Prop :=
  limit.exceededBy depth = true ∨
    Reader.start.run limit depth block.origin block.text.toList = none

/-- A level with an unreadable block. -/
inductive Doomed (limit : DepthLimit) (depth : Nat) : Level → Prop where
  | block {openSets name arguments block} : Unreadable limit (depth + 1) block →
      Doomed limit depth ⟨openSets, .block name arguments block⟩

/-- How a step of a level and a step of a reader that follows it agree. -/
inductive StepsAlike (limit : DepthLimit) (depth : Nat) (here : Position)
    (selections : List Selection) : Level.Outcome → Option Reader → Prop where
  | refused {fault} : StepsAlike limit depth here selections (.error fault) none
  | doomed {next} : Doomed limit depth next →
      StepsAlike limit depth here selections (.ok (next, none)) none
  | waits {next reader} : Follows limit depth here next selections reader →
      StepsAlike limit depth here selections (.ok (next, none)) (some reader)
  | fails {next entry} : (readEntry limit depth entry).toOption = none →
      StepsAlike limit depth here selections (.ok (next, some entry)) none
  | completes {next entry selection reader} :
      (readEntry limit depth entry).toOption = some selection →
      Follows limit depth here next (selections ++ [selection]) reader →
      StepsAlike limit depth here selections (.ok (next, some entry)) (some reader)

variable {limit : DepthLimit} {depth : Nat}

theorem flush_alike {here : Position} {selections : List Selection} (openSets : List Position)
    (pending after : Pending) :
    StepsAlike limit depth here selections
      (do
        let entry ← pending.flush
        return (⟨openSets, .between after⟩, entry))
      (do
        let complete ← flush selections pending
        some ⟨sets openSets, complete, .between after⟩) := by
  cases pending with
  | nothing => exact .waits .between
  | named name start ended => exact .completes rfl .between
  | called name start arguments => exact .refused

theorem openBlock_alike {here : Position} {selections : List Selection} (openSets : List Position)
    (name : String) (arguments : Arguments) :
    StepsAlike limit depth (here.advance '{') selections
      (.ok (⟨openSets, .block name arguments (.opened here)⟩, none))
      (Reader.openBlock limit depth (sets openSets) selections name arguments) := by
  simp only [Reader.openBlock, blocks_sets, Nat.add_zero]
  split
  · next tooDeep => exact .doomed (.block (.inl tooDeep))
  · next allowed =>
      have collects : Collects limit (depth + 1) (.opened here) .start (here.advance '{') :=
        ⟨by simpa using allowed, rfl, rfl, rfl, rfl⟩
      exact .waits (.block collects)

theorem stepBetween_alike (openSets : List Position) (selections : List Selection)
    (pending : Pending) (character : Char) (here : Position) :
    StepsAlike limit depth (here.advance character) selections
      (Level.stepBetween openSets pending character here)
      (Reader.stepBetween limit depth (sets openSets) selections pending character here) := by
  simp only [Level.stepBetween, Reader.stepBetween]
  split
  · exact .waits .comment
  split
  · exact flush_alike openSets pending .nothing
  split
  · exact .waits .between
  split
  · cases pending with
    | nothing => exact .refused
    | named name start ended => exact .waits .arguments
    | called name start arguments => exact .refused
  split
  · next opening =>
      subst opening
      cases pending with
      | nothing => exact .waits (Follows.between : Follows _ _ _ ⟨here :: openSets, _⟩ _ _)
      | named name start ended => exact openBlock_alike openSets name .empty
      | called name start arguments => exact openBlock_alike openSets name arguments
  split
  · cases openSets with
    | nil => cases pending <;> exact .refused
    | cons opening outer => exact flush_alike outer pending .nothing
  split
  · cases pending with
    | nothing => exact flush_alike openSets .nothing _
    | named name start ended =>
        cases ended with
        | false => exact .waits .between
        | true => exact flush_alike openSets (.named name start true) _
    | called name start arguments => exact .refused
  · exact .refused

theorem collects_extend {block : Block} {inner next : Reader} {character : Char} {here : Position}
    (collects : Collects limit depth block inner here)
    (stepped : inner.step limit depth character here = some next) :
    block.step character here = .ok (.waiting (block.extend character)) ∧
      Collects limit depth (block.extend character) next (here.advance character) := by
  obtain ⟨allowed, ran, stands, watches⟩ := collects
  obtain ⟨waiting, watched⟩ := Reader.step_watches watches stepped
  refine ⟨waiting, allowed, ?_, ?_, watched⟩
  · rw [Block.toList_text_extend, Reader.run_append]
    simp only [Block.extend, ran, stands, Option.bind_some, Reader.run_cons, stepped,
      Reader.run_nil]
  · rw [Block.toList_text_extend, Position.after_append]
    simp only [Block.extend, stands, Position.after_cons, Position.after_nil]

theorem unreadable_extend {block : Block} {inner : Reader} {character : Char} {here : Position}
    (collects : Collects limit depth block inner here)
    (refused : inner.step limit depth character here = none) :
    Unreadable limit depth (block.extend character) := by
  refine .inr ?_
  rw [Block.toList_text_extend, Reader.run_append]
  simp only [Block.extend, collects.ran, collects.stands, Option.bind_some, Reader.run_cons,
    refused, Option.bind_none]

theorem Unreadable.extend {block : Block} (unreadable : Unreadable limit depth block)
    (character : Char) : Unreadable limit depth (block.extend character) := by
  refine unreadable.imp_right fun refused => ?_
  rw [Block.toList_text_extend, Reader.run_append]
  simp only [Block.extend, refused, Option.bind_none]

theorem Unreadable.readEntry_eq_none {block : Block}
    (unreadable : Unreadable limit (depth + 1) block)
    (alike : ReadsAlike limit (depth + 1) block.origin block.text) (name : String)
    (arguments : Arguments) :
    (readEntry limit depth (.block name arguments block.origin block.text)).toOption = none := by
  simp only [readEntry, Fallible.toOption_bind]
  rw [alike]
  split
  · rfl
  · next allowed =>
      rcases unreadable with tooDeep | refused
      · exact absurd tooDeep allowed
      · simp only [readLevel, refused, Option.bind_none]

theorem closeBlock_alike {openSets : List Position} {selections : List Selection} {name : String}
    {arguments : Arguments} {block : Block} {inner : Reader} {character : Char} {here : Position}
    (collects : Collects limit (depth + 1) block inner here) (closes : inner.Closes character)
    (nested : ReadsAlike limit (depth + 1) block.origin block.text) :
    StepsAlike limit depth (here.advance character) selections
      (.ok (⟨openSets, .between .nothing⟩,
        some (.block name arguments block.origin block.text)))
      ((inner.under (.branch name arguments selections :: sets openSets)).step limit depth
        character here) := by
  obtain ⟨frames, rfl, pending, place⟩ := closes
  have read : (readEntry limit depth (.block name arguments block.origin block.text)).toOption =
      (flush inner.selections pending).map (.branch name arguments) := by
    simp only [readEntry, Fallible.toOption_bind]
    rw [nested, if_neg (by simp [collects.allowed])]
    simp only [readLevel, collects.ran, Option.bind_some, Reader.finish, frames, place]
    cases flush inner.selections pending <;> rfl
  obtain ⟨innerFrames, innerSelections, innerPlace⟩ := inner
  cases frames
  cases place
  cases pending with
  | nothing => exact .completes read .between
  | named start ended => exact .completes read .between
  | called => exact .fails read

/-- A step inside an open block. The level only collects the character, the reader reads it. -/
theorem collecting_alike {openSets : List Position} {selections : List Selection} {name : String}
    {arguments : Arguments} {block : Block} {inner : Reader} {character : Char} {here : Position}
    (collects : Collects limit (depth + 1) block inner here)
    (inside : ¬ inner.Closes character) :
    StepsAlike limit depth (here.advance character) selections
      (Level.step ⟨openSets, .block name arguments block⟩ character here)
      ((inner.under (.branch name arguments selections :: sets openSets)).step limit depth
        character here) := by
  have lifted := Reader.step_under inside limit depth
    (.branch name arguments selections :: sets openSets) here
  simp only [blocks, blocks_sets, Nat.zero_add] at lifted
  rw [lifted]
  cases stepped : inner.step limit (depth + 1) character here with
  | some next =>
      obtain ⟨waiting, collects⟩ := collects_extend collects stepped
      simp only [Level.step, waiting]
      exact .waits (.block collects)
  | none =>
      -- The block goes on collecting, but its text has become unreadable.
      cases outcome : block.step character here with
      | error fault =>
          simp only [Level.step, outcome]
          exact .refused
      | ok progress =>
          cases progress with
          | closed text =>
              have closed := (Reader.step_closed_iff here collects.watches).mp outcome
              exact absurd closed.1 inside
          | waiting extended =>
              cases Block.eq_extend_of_step outcome
              simp only [Level.step, outcome]
              exact .doomed (.block (unreadable_extend collects stepped))

theorem step_alike {level : Level} {selections : List Selection} {reader : Reader}
    {here : Position} (character : Char)
    (follows : Follows limit depth here level selections reader)
    (nested : ∀ next name arguments origin body,
      level.step character here = .ok (next, some (.block name arguments origin body)) →
      ReadsAlike limit (depth + 1) origin body) :
    StepsAlike limit depth (here.advance character) selections (level.step character here)
      (reader.step limit depth character here) := by
  cases follows with
  | between => exact stepBetween_alike _ selections _ character here
  | comment =>
      simp only [Level.step, Reader.step]
      split
      · exact .waits .between
      · exact .waits .comment
  | arguments =>
      simp only [Level.step, Reader.step]
      split
      · next fault refused =>
          rw [refused]
          exact .refused
      · next list accepted =>
          rw [accepted]
          exact .waits .arguments
      · next arguments accepted =>
          rw [accepted]
          exact .waits .between
  | @block openSets _ name arguments block inner collects =>
      by_cases closes : inner.Closes character
      · have closed := (Reader.step_closed_iff here collects.watches).mpr ⟨closes, rfl⟩
        have stepped : Level.step ⟨openSets, .block name arguments block⟩ character here =
            .ok (⟨openSets, .between .nothing⟩,
              some (.block name arguments block.origin block.text)) := by
          simp only [Level.step, closed]
          rfl
        rw [stepped]
        exact closeBlock_alike collects closes (nested _ _ _ _ _ stepped)
      · exact collecting_alike collects closes

def BlocksReadAlike (limit : DepthLimit) (depth : Nat) (entries : List Entry) : Prop :=
  ∀ name arguments origin body, .block name arguments origin body ∈ entries →
    ReadsAlike limit (depth + 1) origin body

theorem readScan_doomed {level : Level} {here : Position} {rest : List Char}
    (doomed : Doomed limit depth level)
    (nested : BlocksReadAlike limit depth (level.scan here rest).entries) :
    (readScan limit depth (level.scan here rest)).toOption = none := by
  induction rest generalizing level here with
  | nil =>
      cases doomed
      rfl
  | cons character rest ih =>
      cases doomed with
      | @block openSets name arguments block unreadable =>
          simp only [Level.scan, Level.step] at nested ⊢
          cases outcome : block.step character here with
          | error fault => rfl
          | ok progress =>
              rw [outcome] at nested
              cases progress with
              | waiting extended =>
                  cases Block.eq_extend_of_step outcome
                  exact ih (.block (unreadable.extend character)) nested
              | closed text =>
                  cases Block.eq_text_of_step outcome
                  have alike := nested name arguments block.origin block.text List.mem_cons_self
                  refine (toOption_readScan_prepend _ _ _ _).trans ?_
                  rw [unreadable.readEntry_eq_none alike, Option.bind_none]

private theorem readScan_flush (limit : DepthLimit) (depth : Nat) (selections : List Selection)
    (pending : Pending) (here : Position) :
    (readScan limit depth (Level.scan ⟨[], .between pending⟩ here [])).toOption.map
      (selections ++ ·) = flush selections pending := by
  cases pending with
  | nothing => exact congrArg some (List.append_nil selections)
  | named => rfl
  | called => rfl

/-- At the end of the text nothing may be open in either way of reading. -/
theorem readScan_finish {level : Level} {selections : List Selection} {reader : Reader}
    {here : Position} (follows : Follows limit depth here level selections reader) :
    (readScan limit depth (level.scan here [])).toOption.map (selections ++ ·) =
      reader.finish := by
  cases follows with
  | @between openSets _ pending =>
      cases openSets with
      | nil => exact readScan_flush limit depth selections pending here
      | cons => cases pending <;> rfl
  | @comment openSets _ pending =>
      cases openSets with
      | nil => exact readScan_flush limit depth selections pending here
      | cons => cases pending <;> rfl
  | @arguments openSets => cases openSets <;> rfl
  | @block openSets _ name arguments block inner collects =>
      obtain ⟨frames, innerSelections, place⟩ := inner
      cases frames <;> rfl

/-- A level gives what a reader that follows it gives, whatever characters remain. -/
theorem readScan_follows {level : Level} {selections : List Selection} {reader : Reader}
    {here : Position} (rest : List Char)
    (follows : Follows limit depth here level selections reader)
    (nested : BlocksReadAlike limit depth (level.scan here rest).entries) :
    (readScan limit depth (level.scan here rest)).toOption.map (selections ++ ·) =
      (reader.run limit depth here rest).bind Reader.finish := by
  induction rest generalizing level selections reader here with
  | nil => exact readScan_finish follows
  | cons character rest ih =>
      have alike := step_alike character follows fun next name arguments origin body stepped => by
        simp only [Level.scan, stepped] at nested
        exact nested name arguments origin body List.mem_cons_self
      rw [Reader.run_cons]
      simp only [Level.scan] at nested ⊢
      generalize level.step character here = outcome at alike nested
      generalize reader.step limit depth character here = stepped at alike
      cases alike with
      | refused => rfl
      | doomed doomed =>
          rw [Option.bind_none, readScan_doomed doomed nested]
          rfl
      | waits follows => exact ih follows nested
      | fails failed =>
          simp only [toOption_readScan_prepend, failed]
          rfl
      | completes succeeded follows =>
          have later := ih follows fun name arguments origin body member =>
            nested name arguments origin body (List.mem_cons_of_mem _ member)
          simp only [toOption_readScan_prepend, succeeded, Option.bind_some]
          rw [← later, Option.map_map]
          congr 1
          funext remaining
          simp

/-- Reading a level is reading it in one pass, unless it lies too deep. -/
theorem readsAlike (limit : DepthLimit) (depth : Nat) (origin : Position) (text : String) :
    ReadsAlike limit depth origin text := by
  rw [ReadsAlike, parseLevel_eq]
  split
  · rfl
  · -- The text of a block is shorter than the text around it, so blocks are read alike already.
    have follows : Follows limit depth origin .start [] .start := .between
    have alike := readScan_follows text.toList follows fun name arguments within body member =>
      readsAlike limit (depth + 1) within body
    exact Option.map_id'.symm.trans alike
termination_by text.length
decreasing_by exact Level.length_text_lt_of_mem_scan ‹_›

end OnePass

/-- The success of reading a query is that of reading it in one pass. -/
theorem toOption_parse (limit : DepthLimit) (text : String) :
    (parse limit text).toOption = OnePass.read limit text := by
  have alike := OnePass.readsAlike limit 1 .start text
  rwa [OnePass.ReadsAlike, if_neg (by simp [DepthLimit.exceededBy_one])] at alike

/-- A query is read exactly when one pass with an explicit stack accepts it, and both build the
same selections. -/
theorem parse_eq_ok_iff_read (limit : DepthLimit) (text : String) (selections : List Selection) :
    parse limit text = .ok selections ↔ OnePass.read limit text = some selections := by
  rw [← toOption_parse]
  exact Fallible.toOption_eq_some_iff.symm

end FieldQuery.Query
