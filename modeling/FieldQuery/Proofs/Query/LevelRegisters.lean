import FieldQuery.Proofs.Query.BlockBalance
import FieldQuery.Proofs.Query.Spacing

/-!
# Levels in registers

A level can be read with one register for each thing that is known of it, and with its blocks read
as soon as they are closed. Three of the registers say what is open: a block, an argument list or a
comment. Their types do not keep two of them from being open at once, nor a block from being closed
that is not there, so where the reading relies on that, it stops with a cause of its own.

`step_alike` says that registers that describe a level do what the level does, and describe the
level behind it.
-/

set_option autoImplicit false

namespace FieldQuery.Query

open Fallible

/-- Why reading in registers stops. Only a fault is a matter of the text. -/
inductive Halt where
  | fault (cause : ParseError)
  /-- A brace to take away where none is open. -/
  | noOpenBrace
  /-- A block to complete where none is open. -/
  | noOpenBlock
  /-- Blocks within blocks beyond the number that was allowed for. -/
  | outOfBudget
  deriving DecidableEq

/-- How the text of a block is read, which begins at a position. -/
abbrev BlockReading := Position → String → Except Halt (List Selection)

/-- A level that is not read to its end, in registers. -/
structure LevelRegisters where
  /-- The position of the next character. -/
  position : Position
  selections : List Selection
  /-- The name of the pending field, empty if no field is pending. -/
  name : String
  nameAt : Position
  /-- No further character can join the name. -/
  nameEnded : Bool
  /-- The closed argument list of the pending field. -/
  arguments : Option Arguments
  openArguments : Option ArgumentList
  block : Option Block
  /-- The positions of the nameless braces still open, the innermost first. -/
  openSets : List Position
  inComment : Bool
  deriving DecidableEq

namespace LevelRegisters

def start (origin : Position) : LevelRegisters :=
  ⟨origin, [], "", origin, false, none, none, none, [], false⟩

def endName (registers : LevelRegisters) : LevelRegisters :=
  if registers.name.isEmpty then registers else { registers with nameEnded := true }

/-- The pending field is a leaf, unless it has arguments. -/
def flushLeaf (registers : LevelRegisters) : Except ParseError LevelRegisters :=
  if registers.arguments.isSome then
    .error (.argumentsWithoutSelection registers.name registers.nameAt)
  else if registers.name.isEmpty then .ok { registers with nameEnded := false }
  else
    .ok { registers with
      selections := registers.selections ++ [.leaf registers.name], name := "", nameEnded := false }

def appendName (registers : LevelRegisters) (character : Char) (here : Position) :
    LevelRegisters :=
  { registers with
    name := registers.name.push character
    nameAt := if registers.name.isEmpty then here else registers.nameAt }

def pushName (registers : LevelRegisters) (character : Char) (here : Position) :
    Except ParseError LevelRegisters := do
  let registers ←
    if registers.nameEnded || registers.arguments.isSome then registers.flushLeaf
    else .ok registers
  return registers.appendName character here

def openList (registers : LevelRegisters) (here : Position) : Except ParseError LevelRegisters :=
  if registers.name.isEmpty then .error (.argumentsWithoutField here)
  else if registers.arguments.isSome then .error (.duplicateArgumentList registers.name here)
  else .ok { registers with openArguments := some (.opened here) }

def openBrace (registers : LevelRegisters) (here : Position) : LevelRegisters :=
  if registers.name.isEmpty then { registers with openSets := here :: registers.openSets }
  else { registers with block := some (.opened here) }

def closeSet (registers : LevelRegisters) (here : Position) : Except ParseError LevelRegisters := do
  let registers ← registers.flushLeaf
  match registers.openSets with
  | [] => throw (.unexpectedClosingBrace here)
  | _ :: outer => return { registers with openSets := outer }

def stepBetween (registers : LevelRegisters) (character : Char) (here : Position) :
    Except ParseError LevelRegisters :=
  if character = '#' then .ok { registers.endName with inComment := true }
  else if character = ',' then registers.flushLeaf
  else if Text.isBlank character then .ok registers.endName
  else if character = '(' then registers.openList here
  else if character = '{' then .ok (registers.openBrace here)
  else if character = '}' then registers.closeSet here
  else if isNameCharacter character then registers.pushName character here
  else .error (.unexpectedCharacter character here)

/-- A character of a block. A brace that closes must have one to close. -/
def stepBlock (block : Block) (character : Char) (here : Position) :
    Except Halt (Progress Block String) :=
  if block.surroundings = .plain ∧ character = '}' ∧ block.openBraces = 0 then .error .noOpenBrace
  else (block.step character here).mapError .fault

/-- The open block is read, and the pending field becomes a branch. -/
def closeBlock (registers : LevelRegisters) (nested : BlockReading) : Except Halt LevelRegisters :=
  match registers.block with
  | none => .error .noOpenBlock
  | some block => do
      let inner ← nested block.origin block.text
      let branch := Selection.branch registers.name (registers.arguments.getD .empty) inner
      return { registers with
        selections := registers.selections ++ [branch], name := "", nameEnded := false,
        arguments := none, block := none }

def step (nested : BlockReading) (registers : LevelRegisters) (character : Char) :
    Except Halt LevelRegisters :=
  let here := registers.position
  let registers := { registers with position := here.advance character }
  match registers.block with
  | some block => do
      match ← stepBlock block character here with
      | .waiting block => return { registers with block := some block }
      | .closed _ => registers.closeBlock nested
  | none =>
      if registers.inComment then
        if character = '\n' then .ok { registers with inComment := false }.endName
        else .ok registers
      else
        match registers.openArguments with
        | some list => do
            match ← (list.step character here).mapError Halt.fault with
            | .waiting list => return { registers with openArguments := some list }
            | .closed arguments =>
                return { registers with openArguments := none, arguments := some arguments }
        | none => (registers.stepBetween character here).mapError .fault

def feed (nested : BlockReading) (registers : LevelRegisters) (characters : List Char) :
    Except Halt LevelRegisters :=
  characters.foldlM (step nested) registers

def finish (registers : LevelRegisters) : Except ParseError (List Selection) :=
  match registers.openArguments, registers.block with
  | some list, _ => .error (.unterminatedArguments list.openedAt)
  | none, some block => .error (.unterminatedBrace block.openedAt)
  | none, none => do
      let registers ← registers.flushLeaf
      match registers.openSets with
      | [] => return registers.selections
      | innermost :: _ => throw (.unterminatedBrace innermost)

/-- Reads a level and, as often as the budget allows, blocks within it. -/
def read (limit : DepthLimit) : (budget depth : Nat) → BlockReading
  | 0, _, _, _ => .error .outOfBudget
  | budget + 1, depth, origin, text =>
      if limit.exceededBy depth then .error (.fault (.depthLimitExceeded limit origin))
      else do
        let last ← feed (read limit budget (depth + 1)) (start origin) text.toList
        last.finish.mapError .fault

structure Coherent (registers : LevelRegisters) : Prop where
  openArguments_of_block : registers.block ≠ none → registers.openArguments = none
  inComment_of_block : registers.block ≠ none → registers.inComment = false
  inComment_of_openArguments : registers.openArguments ≠ none → registers.inComment = false
  name_of_block : registers.block ≠ none → registers.name ≠ ""
  name_of_openArguments : registers.openArguments ≠ none → registers.name ≠ ""
  name_of_arguments : registers.arguments ≠ none → registers.name ≠ ""
  arguments_of_openArguments : registers.openArguments ≠ none → registers.arguments = none
  name_of_nameEnded : registers.nameEnded = true → registers.name ≠ ""
  openBraces : ∀ block, registers.block = some block → 1 ≤ block.openBraces

/-! ## The level that registers describe -/

inductive Names : String → Position → Bool → Option Arguments → Pending → Prop where
  | nothing {start : Position} : Names "" start false none .nothing
  | named {name : String} {start : Position} {ended : Bool} (nonempty : name ≠ "") :
      Names name start ended none (.named name start ended)
  | called {name : String} {start : Position} {ended : Bool} {arguments : Arguments}
      (nonempty : name ≠ "") :
      Names name start ended (some arguments) (.called name start arguments)

/-- The level that registers stand for, with the selections read so far. -/
inductive Describes (position : Position) (selections : List Selection) :
    LevelRegisters → Level → Prop where
  | between {name : String} {start : Position} {ended : Bool} {arguments : Option Arguments}
      {pending : Pending} {openSets : List Position}
      (names : Names name start ended arguments pending) :
      Describes position selections
        ⟨position, selections, name, start, ended, arguments, none, none, openSets, false⟩
        ⟨openSets, .between pending⟩
  | comment {name : String} {start : Position} {ended : Bool} {arguments : Option Arguments}
      {pending : Pending} {openSets : List Position}
      (names : Names name start ended arguments pending) (settled : pending.ended = pending) :
      Describes position selections
        ⟨position, selections, name, start, ended, arguments, none, none, openSets, true⟩
        ⟨openSets, .comment pending⟩
  | arguments {name : String} {start : Position} {ended : Bool} {list : ArgumentList}
      {openSets : List Position} (nonempty : name ≠ "") :
      Describes position selections
        ⟨position, selections, name, start, ended, none, some list, none, openSets, false⟩
        ⟨openSets, .arguments name start list⟩
  | block {name : String} {start : Position} {ended : Bool} {arguments : Option Arguments}
      {block : Block} {openSets : List Position} (nonempty : name ≠ "")
      (live : 1 ≤ block.openBraces) :
      Describes position selections
        ⟨position, selections, name, start, ended, arguments, none, some block, openSets, false⟩
        ⟨openSets, .block name (arguments.getD .empty) block⟩

theorem describes_start (origin : Position) : Describes origin [] (start origin) .start :=
  .between .nothing

section

variable {position : Position} {selections : List Selection}

theorem Names.coherent {name : String} {start : Position} {ended : Bool}
    {arguments : Option Arguments} {pending : Pending}
    (names : Names name start ended arguments pending) (openSets : List Position)
    (inComment : Bool) :
    Coherent ⟨position, selections, name, start, ended, arguments, none, none, openSets,
      inComment⟩ := by
  cases names with
  | nothing => exact ⟨nofun, nofun, nofun, nofun, nofun, nofun, nofun, nofun, nofun⟩
  | named nonempty =>
      exact ⟨nofun, nofun, nofun, nofun, nofun, nofun, nofun, fun _ => nonempty, nofun⟩
  | called nonempty =>
      exact ⟨nofun, nofun, nofun, nofun, nofun, fun _ => nonempty, nofun, fun _ => nonempty, nofun⟩

theorem Describes.coherent {registers : LevelRegisters} {level : Level}
    (describes : Describes position selections registers level) : registers.Coherent := by
  cases describes with
  | between names => exact names.coherent _ false
  | comment names settled => exact names.coherent _ true
  | arguments nonempty =>
      exact ⟨nofun, nofun, fun _ => rfl, nofun, fun _ => nonempty, nofun, fun _ => rfl,
        fun _ => nonempty, nofun⟩
  | block nonempty live =>
      refine ⟨fun _ => rfl, fun _ => rfl, nofun, fun _ => nonempty, nofun, fun _ => nonempty, nofun,
        fun _ => nonempty, ?_⟩
      intro block same
      cases same
      exact live

section

variable {registers : LevelRegisters} {level : Level} {block : Block}

theorem Describes.selections_eq (describes : Describes position selections registers level) :
    registers.selections = selections := by
  cases describes <;> rfl

theorem Describes.focus_of_block (describes : Describes position selections registers level)
    (live : registers.block = some block) :
    level.focus = .block registers.name (registers.arguments.getD .empty) block := by
  cases describes <;> cases live
  rfl

theorem Describes.block_of_focus {name : String} {arguments : Arguments}
    (describes : Describes position selections registers level)
    (live : level.focus = .block name arguments block) : registers.block = some block := by
  cases describes <;> cases live
  rfl

theorem Describes.block_of_between {pending : Pending}
    (describes : Describes position selections registers level)
    (rests : level.focus = .between pending) : registers.block = none := by
  cases describes <;> cases rests
  rfl

end

/-! ## Steps -/

def gives (nested : BlockReading) : Option Entry → Except Halt (List Selection)
  | none => .ok []
  | some (.leaf name) => .ok [.leaf name]
  | some (.block name arguments origin text) => do
      let inner ← nested origin text
      return [.branch name arguments inner]

/-- A step of a level and one of registers: both are refused for one cause, or the level goes on and
the registers go on with it unless a completed block cannot be read. -/
inductive StepsAlike (nested : BlockReading) (position : Position) (selections : List Selection) :
    Level.Outcome → Except Halt LevelRegisters → Prop where
  | refused {cause : ParseError} :
      StepsAlike nested position selections (.error cause) (.error (.fault cause))
  | halts {next : Level} {entry : Option Entry} {halt : Halt}
      (failed : gives nested entry = .error halt) :
      StepsAlike nested position selections (.ok (next, entry)) (.error halt)
  | goesOn {next : Level} {entry : Option Entry} {added : List Selection} {after : LevelRegisters}
      (gave : gives nested entry = .ok added)
      (describes : Describes position (selections ++ added) after next) :
      StepsAlike nested position selections (.ok (next, entry)) (.ok after)

variable {nested : BlockReading} {next : Level} {after : LevelRegisters}

theorem StepsAlike.waits (describes : Describes position selections after next) :
    StepsAlike nested position selections (.ok (next, none)) (.ok after) := by
  refine .goesOn rfl ?_
  rw [List.append_nil]
  exact describes

variable {name : String} {start : Position} {ended : Bool} {arguments : Option Arguments}
  {pending : Pending} {openSets : List Position} {inComment : Bool} {here : Position}

theorem endName_eq (names : Names name start ended arguments pending) :
    ∃ later, Names name start later arguments pending.ended ∧
      ∀ position selections openSets inComment,
        endName ⟨position, selections, name, start, ended, arguments, none, none, openSets,
            inComment⟩ =
          ⟨position, selections, name, start, later, arguments, none, none, openSets,
            inComment⟩ := by
  cases names with
  | nothing => exact ⟨false, .nothing, fun _ _ _ _ => rfl⟩
  | named nonempty =>
      exact ⟨true, .named nonempty, fun _ _ _ _ => if_neg (by simpa using nonempty)⟩
  | called nonempty =>
      exact ⟨true, .called nonempty, fun _ _ _ _ => if_neg (by simpa using nonempty)⟩

theorem flushLeaf_named (nonempty : name ≠ "") :
    flushLeaf ⟨position, selections, name, start, ended, none, none, none, openSets, inComment⟩ =
      .ok ⟨position, selections ++ [.leaf name], "", start, false, none, none, none, openSets,
        inComment⟩ := by
  simp [flushLeaf, nonempty]

theorem comma_alike (names : Names name start ended arguments pending) :
    StepsAlike nested position selections
      (do
        let entry ← pending.flush
        return (⟨openSets, .between .nothing⟩, entry))
      ((flushLeaf ⟨position, selections, name, start, ended, arguments, none, none, openSets,
        false⟩).mapError .fault) := by
  cases names with
  | nothing => exact .waits (.between .nothing)
  | named nonempty =>
      rw [flushLeaf_named nonempty]
      exact .goesOn rfl (.between .nothing)
  | called nonempty => exact .refused

theorem openList_alike (names : Names name start ended arguments pending) :
    StepsAlike nested position selections (Level.openArguments openSets pending here)
      ((openList ⟨position, selections, name, start, ended, arguments, none, none, openSets, false⟩
        here).mapError .fault) := by
  cases names with
  | nothing => exact .refused
  | named nonempty =>
      rw [openList, if_neg (by simpa using nonempty)]
      exact .waits (.arguments nonempty)
  | called nonempty =>
      rw [openList, if_neg (by simpa using nonempty)]
      exact .refused

theorem openBrace_alike (names : Names name start ended arguments pending) :
    StepsAlike nested position selections (Level.openBrace openSets pending here)
      (.ok (openBrace ⟨position, selections, name, start, ended, arguments, none, none, openSets,
        false⟩ here)) := by
  cases names with
  | nothing => exact .waits (.between .nothing)
  | named nonempty =>
      rw [openBrace, if_neg (by simpa using nonempty)]
      exact .waits (.block nonempty (Nat.le_refl 1))
  | called nonempty =>
      rw [openBrace, if_neg (by simpa using nonempty)]
      exact .waits (.block nonempty (Nat.le_refl 1))

theorem closeSet_alike (names : Names name start ended arguments pending) :
    StepsAlike nested position selections (Level.closeBrace openSets pending here)
      ((closeSet ⟨position, selections, name, start, ended, arguments, none, none, openSets, false⟩
        here).mapError .fault) := by
  cases names with
  | called nonempty => exact .refused
  | nothing =>
      cases openSets with
      | nil => exact .refused
      | cons innermost outer => exact .waits (.between .nothing)
  | named nonempty =>
      rw [closeSet, flushLeaf_named nonempty]
      cases openSets with
      | nil => exact .refused
      | cons innermost outer => exact .goesOn rfl (.between .nothing)

theorem pushName_alike {character : Char} (names : Names name start ended arguments pending) :
    StepsAlike nested position selections (Level.writeName openSets pending character here)
      ((pushName ⟨position, selections, name, start, ended, arguments, none, none, openSets, false⟩
        character here).mapError .fault) := by
  cases names with
  | called nonempty => cases ended <;> exact .refused
  | nothing => exact .waits (.between (.named (by simp)))
  | named nonempty =>
      cases ended with
      | false =>
          have joined : appendName ⟨position, selections, name, start, false, none, none, none,
              openSets, false⟩ character here = ⟨position, selections, name.push character, start,
                false, none, none, none, openSets, false⟩ := by
            simp [appendName, nonempty]
          refine .waits ?_
          rw [joined]
          exact .between (.named (by simp))
      | true =>
          simp only [pushName, Bool.true_or, if_true, flushLeaf_named nonempty]
          exact .goesOn rfl (.between (.named (by simp)))

theorem stepBetween_alike {character : Char} (names : Names name start ended arguments pending) :
    StepsAlike nested position selections (Level.stepBetween openSets pending character here)
      ((stepBetween ⟨position, selections, name, start, ended, arguments, none, none, openSets,
        false⟩ character here).mapError .fault) := by
  simp only [Level.stepBetween, stepBetween]
  split
  · obtain ⟨later, names, ended⟩ := endName_eq names
    rw [ended]
    exact .waits (.comment names (Pending.ended_ended pending))
  split
  · exact comma_alike names
  split
  · obtain ⟨later, names, ended⟩ := endName_eq names
    rw [ended]
    exact .waits (.between names)
  split
  · exact openList_alike names
  split
  · exact openBrace_alike names
  split
  · exact closeSet_alike names
  split
  · exact pushName_alike names
  · exact .refused

theorem list_alike {character : Char} {list : ArgumentList} (nonempty : name ≠ "") :
    StepsAlike nested (position.advance character) selections
      (Level.step ⟨openSets, .arguments name start list⟩ character position)
      (step nested ⟨position, selections, name, start, ended, none, some list, none, openSets,
        false⟩ character) := by
  simp only [Level.step, step, Bool.false_eq_true, if_false]
  cases list.step character position with
  | error cause => exact .refused
  | ok progress =>
      cases progress with
      | waiting list => exact .waits (.arguments nonempty)
      | closed arguments => exact .waits (.between (.called nonempty))

/-- A block with a brace open loses none that is not there. -/
theorem stepBlock_of_live {block : Block} (live : 1 ≤ block.openBraces) (character : Char)
    (here : Position) :
    stepBlock block character here = (block.step character here).mapError .fault := by
  refine if_neg ?_
  intro closesNothing
  omega

theorem block_alike {character : Char} {block : Block} (nonempty : name ≠ "")
    (live : 1 ≤ block.openBraces) :
    StepsAlike nested (position.advance character) selections
      (Level.step ⟨openSets, .block name (arguments.getD .empty) block⟩ character position)
      (step nested ⟨position, selections, name, start, ended, arguments, none, some block, openSets,
        false⟩ character) := by
  simp only [Level.step, step, stepBlock_of_live live]
  cases stepped : block.step character position with
  | error cause => exact .refused
  | ok progress =>
      cases progress with
      | waiting extended =>
          have stillOpen := (Block.stays_open_of_step stepped).2
          cases Block.eq_extend_of_step stepped
          exact .waits (.block nonempty (Nat.one_le_iff_ne_zero.mpr stillOpen))
      | closed text =>
          cases Block.eq_text_of_step stepped
          -- The block is still in its register when it is completed, so it can be read.
          change StepsAlike nested _ _ _ (do
            let inner ← nested block.origin block.text
            return ⟨position.advance character,
              selections ++ [.branch name (arguments.getD .empty) inner], "", start, false, none,
              none, none, openSets, false⟩)
          cases read : nested block.origin block.text with
          | error halt =>
              refine .halts ?_
              rw [gives, read]
              rfl
          | ok inner =>
              refine .goesOn ?_ (.between .nothing)
              rw [gives, read]
              rfl

/-- Registers that describe a level do what the level does. -/
theorem step_alike {registers : LevelRegisters} {level : Level}
    (describes : Describes position selections registers level) (nested : BlockReading)
    (character : Char) :
    StepsAlike nested (position.advance character) selections (level.step character position)
      (registers.step nested character) := by
  cases describes with
  | between names => exact stepBetween_alike names
  | arguments nonempty => exact list_alike nonempty
  | block nonempty live => exact block_alike nonempty live
  | comment names settled =>
      simp only [Level.step, step, if_true]
      split
      · obtain ⟨later, names, ended⟩ := endName_eq names
        rw [ended]
        rw [settled] at names
        exact .waits (.between names)
      · exact .waits (.comment names settled)

end

end LevelRegisters

end FieldQuery.Query
