import FieldQuery.Proofs.Query.ErrorPositions

/-!
# Texts in other places

Reading never looks at the positions that it carries along. A text that begins elsewhere gives the
same selections, and the same error with its position moved.
-/

set_option autoImplicit false

namespace FieldQuery.Query

variable (move : Position → Position)

def ParseError.relocate : ParseError → ParseError
  | unterminatedBrace opening => unterminatedBrace (move opening)
  | unterminatedArguments opening => unterminatedArguments (move opening)
  | newlineInArguments position => newlineInArguments (move position)
  | unexpectedClosingBrace position => unexpectedClosingBrace (move position)
  | unexpectedCharacter character position => unexpectedCharacter character (move position)
  | argumentsWithoutField position => argumentsWithoutField (move position)
  | argumentsWithoutSelection name position => argumentsWithoutSelection name (move position)
  | duplicateArgumentList name position => duplicateArgumentList name (move position)
  | missingArgumentKey position => missingArgumentKey (move position)
  | missingArgumentValue key position => missingArgumentValue key (move position)
  | duplicateArgument key position => duplicateArgument key (move position)
  | invalidArgumentValue key value position => invalidArgumentValue key value (move position)
  | depthLimitExceeded limit position => depthLimitExceeded limit (move position)

def relocated {Value : Type} (carry : Value → Value) :
    Except ParseError Value → Except ParseError Value
  | .ok value => .ok (carry value)
  | .error error => .error (error.relocate move)

theorem relocated_bind {Value Result : Type} {carry : Value → Value} {carryResult : Result → Result}
    {continuation moved : Value → Except ParseError Result}
    (next : ∀ value, moved (carry value) = relocated move carryResult (continuation value))
    (source : Except ParseError Value) :
    relocated move carry source >>= moved =
      relocated move carryResult (source >>= continuation) := by
  cases source with
  | error => rfl
  | ok value => exact next value

theorem relocated_mapM {Source Value : Type} {carry : Source → Source}
    (step : Source → Except ParseError Value) {moved : Source → Except ParseError Value}
    {sources : List Source}
    (each : ∀ source ∈ sources, moved (carry source) = relocated move id (step source)) :
    (sources.map carry).mapM moved = relocated move id (sources.mapM step) := by
  induction sources with
  | nil => rfl
  | cons source sources ih =>
      rw [List.map_cons, List.mapM_cons, List.mapM_cons, each source List.mem_cons_self]
      apply relocated_bind
      intro value
      rw [ih fun other member => each other (List.mem_cons_of_mem _ member)]
      apply relocated_bind
      intro values
      rfl

def Progress.carried {State Result : Type} (carry : State → State) :
    Progress State Result → Progress State Result
  | .waiting state => .waiting (carry state)
  | .closed result => .closed result

namespace ArgumentList

def relocate (list : ArgumentList) : ArgumentList := { list with openedAt := move list.openedAt }

theorem add_relocate (arguments : Arguments) (key : String) (value : ArgumentValue)
    (here : Position) :
    add arguments key value (move here) = relocated move id (add arguments key value here) := by
  simp only [add]
  split <;> rfl

theorem commit_relocate (arguments : Arguments) (slot : Slot) (here : Position) :
    commit arguments slot (move here) = relocated move id (commit arguments slot here) := by
  cases slot with
  | key name ended =>
      simp only [commit]
      split <;> rfl
  | bare key token spaced =>
      simp only [commit]
      split
      · rfl
      split
      · exact add_relocate move arguments key _ here
      · rfl
  | quoted key text quotation => exact add_relocate move arguments key (.text text) here

theorem write_relocate (slot : Slot) (character : Char) (here : Position) :
    write slot character (move here) = relocated move id (write slot character here) := by
  cases slot with
  | key name ended =>
      simp only [write]
      split
      · split <;> rfl
      · split <;> rfl
  | bare key token spaced =>
      simp only [write]
      split
      · split <;> rfl
      · rfl
  | quoted key text quotation =>
      simp only [write]
      split <;> rfl

theorem stepOutside_relocate (list : ArgumentList) (character : Char) (here : Position) :
    (list.relocate move).stepOutside character (move here) =
      relocated move (Progress.carried (relocate move)) (list.stepOutside character here) := by
  simp only [stepOutside, relocate]
  split
  · rw [commit_relocate]
    apply relocated_bind
    intro arguments
    rfl
  split
  · rw [commit_relocate]
    apply relocated_bind
    intro arguments
    rfl
  split
  · rfl
  · rw [write_relocate]
    apply relocated_bind
    intro slot
    rfl

theorem step_relocate (list : ArgumentList) (character : Char) (here : Position) :
    (list.relocate move).step character (move here) =
      relocated move (Progress.carried (relocate move)) (list.step character here) := by
  obtain ⟨openedAt, arguments, slot⟩ := list
  simp only [step]
  split
  · rfl
  cases slot with
  | key => exact stepOutside_relocate move _ character here
  | bare => exact stepOutside_relocate move _ character here
  | quoted key text quotation =>
      cases quotation with
      | outside => exact stepOutside_relocate move _ character here
      | inside => rfl
      | escaped => rfl

end ArgumentList

namespace Block

def relocate (block : Block) : Block :=
  { block with openedAt := move block.openedAt, origin := move block.origin }

theorem step_relocate (block : Block) (character : Char) (here : Position) :
    (block.relocate move).step character (move here) =
      relocated move (Progress.carried (relocate move)) (block.step character here) := by
  have braces : (block.relocate move).bracesAfter character = block.bracesAfter character := rfl
  have around : (block.relocate move).surroundings = block.surroundings := rfl
  simp only [step, braces, around]
  by_cases newline : character = '\n' ∧ block.surroundings.inArguments = true
  · rw [if_pos newline, if_pos newline]
    rfl
  by_cases closing : block.bracesAfter character = 0
  · rw [if_neg newline, if_neg newline, if_pos closing, if_pos closing]
    rfl
  · rw [if_neg newline, if_neg newline, if_neg closing, if_neg closing]
    rfl

end Block

def Pending.relocate : Pending → Pending
  | .nothing => .nothing
  | .named name start ended => .named name (move start) ended
  | .called name start arguments => .called name (move start) arguments

def Entry.relocate : Entry → Entry
  | .leaf name => .leaf name
  | .block name arguments origin text => .block name arguments (move origin) text

theorem Pending.ended_relocate (pending : Pending) :
    (pending.relocate move).ended = pending.ended.relocate move := by
  cases pending <;> rfl

theorem Pending.flush_relocate (pending : Pending) :
    (pending.relocate move).flush =
      relocated move (Option.map (Entry.relocate move)) pending.flush := by
  cases pending <;> rfl

namespace Level

def relocate (level : Level) : Level where
  openSets := level.openSets.map move
  focus :=
    match level.focus with
    | .between pending => .between (pending.relocate move)
    | .comment pending => .comment (pending.relocate move)
    | .arguments name start list => .arguments name (move start) (list.relocate move)
    | .block name arguments collected => .block name arguments (collected.relocate move)

def relocateOutcome (outcome : Outcome) : Outcome :=
  relocated move (Prod.map (relocate move) (Option.map (Entry.relocate move))) outcome

section

variable (openSets : List Position) (pending : Pending) (here : Position)

theorem openArguments_relocate :
    openArguments (openSets.map move) (pending.relocate move) (move here) =
      relocateOutcome move (openArguments openSets pending here) := by
  cases pending <;> rfl

theorem openBrace_relocate (moves : move (here.advance '{') = (move here).advance '{') :
    openBrace (openSets.map move) (pending.relocate move) (move here) =
      relocateOutcome move (openBrace openSets pending here) := by
  cases pending <;>
    simp [openBrace, relocateOutcome, relocated, relocate, Pending.relocate, Block.relocate,
      Block.opened, moves]

theorem closeBrace_relocate :
    closeBrace (openSets.map move) (pending.relocate move) (move here) =
      relocateOutcome move (closeBrace openSets pending here) := by
  simp only [closeBrace]
  rw [Pending.flush_relocate]
  apply relocated_bind
  intro entry
  cases openSets <;> rfl

theorem writeName_relocate (character : Char) :
    writeName (openSets.map move) (pending.relocate move) character (move here) =
      relocateOutcome move (writeName openSets pending character here) := by
  cases pending with
  | nothing => rfl
  | called => rfl
  | named name start ended => cases ended <;> rfl

theorem stepBetween_relocate {character : Char}
    (moves : move (here.advance character) = (move here).advance character) :
    stepBetween (openSets.map move) (pending.relocate move) character (move here) =
      relocateOutcome move (stepBetween openSets pending character here) := by
  simp only [stepBetween]
  split
  · rw [Pending.ended_relocate]
    rfl
  split
  · rw [Pending.flush_relocate]
    apply relocated_bind
    intro entry
    rfl
  split
  · rw [Pending.ended_relocate]
    rfl
  split
  · exact openArguments_relocate move openSets pending here
  split
  · next brace =>
      rw [brace] at moves
      exact openBrace_relocate move openSets pending here moves
  split
  · exact closeBrace_relocate move openSets pending here
  split
  · exact writeName_relocate move openSets pending here character
  · rfl

theorem step_relocate (level : Level) {character : Char}
    (moves : move (here.advance character) = (move here).advance character) :
    (level.relocate move).step character (move here) =
      relocateOutcome move (level.step character here) := by
  obtain ⟨openSets, focus⟩ := level
  cases focus with
  | between pending => exact stepBetween_relocate move openSets pending here moves
  | comment pending =>
      simp only [step, relocate]
      split <;> rfl
  | arguments name start list =>
      simp only [step, relocate]
      rw [ArgumentList.step_relocate]
      apply relocated_bind
      intro progress
      cases progress <;> rfl
  | block name arguments collected =>
      simp only [step, relocate]
      rw [Block.step_relocate]
      apply relocated_bind
      intro progress
      cases progress <;> rfl

theorem finish_relocate (level : Level) :
    (level.relocate move).finish =
      relocated move (Option.map (Entry.relocate move)) level.finish := by
  have complete (openSets : List Position) (pending : Pending) :
      finish (relocate move ⟨openSets, .between pending⟩) =
        relocated move (Option.map (Entry.relocate move)) (finish ⟨openSets, .between pending⟩) := by
    simp only [finish, relocate]
    rw [Pending.flush_relocate]
    apply relocated_bind
    intro entry
    cases openSets <;> rfl
  obtain ⟨openSets, focus⟩ := level
  cases focus with
  | between pending => exact complete openSets pending
  | comment pending => exact complete openSets pending
  | arguments => rfl
  | block => rfl

end

def Scan.relocate (scan : Scan) : Scan :=
  ⟨scan.entries.map (Entry.relocate move), scan.fault.map (ParseError.relocate move)⟩

theorem Scan.prepend_relocate (entry : Option Entry) (scan : Scan) :
    Scan.prepend (entry.map (Entry.relocate move)) (scan.relocate move) =
      (Scan.prepend entry scan).relocate move := by
  cases entry <;> rfl

end Level

/-- Moves every position of a text as its first one is moved. -/
def Moves : Prop :=
  ∀ characters, move (Position.start.after characters) = (move Position.start).after characters

variable {move} (moves : Moves move)
include moves

theorem Moves.advance (before : List Char) (character : Char) :
    move ((Position.start.after before).advance character) =
      (move (Position.start.after before)).advance character := by
  have behind := moves (before ++ [character])
  rw [Position.after_append, Position.after_append, ← moves before] at behind
  exact behind

theorem Level.scan_relocate (level : Level) (before rest : List Char) :
    (level.relocate move).scan (move (Position.start.after before)) rest =
      (level.scan (Position.start.after before) rest).relocate move := by
  induction rest generalizing level before with
  | nil =>
      simp only [scan]
      rw [finish_relocate]
      cases level.finish with
      | error => rfl
      | ok entry => exact Scan.prepend_relocate move entry ⟨[], none⟩
  | cons character rest ih =>
      have first := moves.advance before character
      have later (next : Level) := ih next (before ++ [character])
      simp only [Position.after_append, Position.after_cons, Position.after_nil, first] at later
      simp only [scan]
      rw [step_relocate move _ level first]
      cases level.step character (Position.start.after before) with
      | error => rfl
      | ok outcome =>
          obtain ⟨next, entry⟩ := outcome
          cases entry with
          | none => exact later next
          | some entry =>
              simp only [relocateOutcome, relocated, Prod.map, Option.map, later]
              exact Scan.prepend_relocate move (some entry) _

/-- A level in another place gives the same selections, and its error with the position moved. -/
theorem parseLevel_relocate (limit : DepthLimit) (depth : Nat) (before : List Char)
    (text : String) :
    parseLevel limit depth (move (Position.start.after before)) text =
      relocated move id (parseLevel limit depth (Position.start.after before) text) := by
  rw [parseLevel_eq, parseLevel_eq]
  split
  · rfl
  · have scanned := Level.scan_relocate moves .start before text.toList
    rw [show Level.start.relocate move = .start from rfl] at scanned
    rw [scanned]
    simp only [readScan, Level.Scan.relocate]
    rw [relocated_mapM move (readEntry limit depth)]
    · apply relocated_bind
      intro selections
      cases (Level.start.scan (Position.start.after before) text.toList).fault <;> rfl
    · intro entry member
      cases entry with
      | leaf name => rfl
      | block name arguments within body =>
          obtain ⟨front, _, _, _, rfl⟩ :=
            (Level.located_scan (Level.located_start before) _).entries _ member
          simp only [Entry.relocate, readEntry]
          rw [parseLevel_relocate limit (depth + 1) (front ++ ['{']) body]
          apply relocated_bind
          intro nested
          rfl
termination_by text.length
decreasing_by exact Level.length_text_lt_of_mem_scan ‹_›

omit moves

/-- The position in a text that a position has once the text begins at `base`. -/
def Position.behind (base position : Position) : Position :=
  if position.line = 1 then ⟨base.line, base.column + (position.column - 1)⟩
  else ⟨base.line + (position.line - 1), position.column⟩

theorem Position.behind_advance (base : Position) {position : Position}
    (counted : 0 < position.line ∧ 0 < position.column) (character : Char) :
    base.behind (position.advance character) = (base.behind position).advance character := by
  obtain ⟨line, column⟩ := position
  obtain ⟨lines, columns⟩ := counted
  dsimp only at lines columns
  have later : line + 1 ≠ 1 := by omega
  simp only [advance]
  by_cases newline : character = '\n'
  · rw [if_pos newline, if_pos newline]
    simp only [behind, if_neg later]
    split <;> simp only [Position.mk.injEq, and_true] <;> omega
  · rw [if_neg newline, if_neg newline]
    simp only [behind]
    split
    · simp only [Position.mk.injEq, true_and]
      omega
    · rfl

theorem Position.moves_behind (base : Position) : Moves base.behind := by
  have counted (position : Position) (counts : 0 < position.line ∧ 0 < position.column)
      (characters : List Char) :
      base.behind (position.after characters) = (base.behind position).after characters := by
    induction characters generalizing position with
    | nil => rfl
    | cons character rest ih =>
        rw [after_cons, ih, base.behind_advance counts, after_cons]
        unfold advance
        split
        · exact ⟨Nat.succ_pos _, Nat.one_pos⟩
        · exact ⟨counts.1, Nat.succ_pos _⟩
  exact counted .start (by decide)

/-- A level reads the same wherever its text begins. -/
theorem parseLevel_at (limit : DepthLimit) (depth : Nat) (base : Position) (text : String) :
    parseLevel limit depth base text =
      relocated base.behind id (parseLevel limit depth .start text) :=
  parseLevel_relocate base.moves_behind limit depth [] text

end FieldQuery.Query
