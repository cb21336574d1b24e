import FieldQuery.Query.ArgumentList
import FieldQuery.Query.Block

/-!
# Levels

One selection set, read character by character without looking into its blocks. Reading a level
gives its entries in order, each as soon as it is complete: leaves by their names, branches by
name, arguments and the text of the block. A nameless pair of braces opens no level of its own.

`length_text_lt_of_mem_scan` says that the text of a block is shorter than the text of the level
around it, which is what makes reading levels within levels end.
-/

set_option autoImplicit false

namespace FieldQuery.Query

inductive Entry where
  | leaf (name : String)
  /-- A field with a block, whose text begins at `origin`. -/
  | block (name : String) (arguments : Arguments) (origin : Position) (text : String)
  deriving DecidableEq

/-- What is known of the field whose entry is not complete yet. -/
inductive Pending where
  | nothing
  /-- A name that begins at `start`; `ended` says that no further character can join it. -/
  | named (name : String) (start : Position) (ended : Bool)
  /-- A name with a closed argument list. -/
  | called (name : String) (start : Position) (arguments : Arguments)
  deriving DecidableEq

inductive Focus where
  | between (pending : Pending)
  | comment (pending : Pending)
  | arguments (name : String) (start : Position) (list : ArgumentList)
  | block (name : String) (arguments : Arguments) (block : Block)
  deriving DecidableEq

structure Level where
  /-- The positions of the nameless braces still open, the innermost first. -/
  openSets : List Position
  focus : Focus
  deriving DecidableEq

def isNameCharacter (character : Char) : Bool :=
  !Text.isBlank character && !Text.isControl character
    && !(['#', ',', '(', ')', '{', '}', ':', '"', '\\'] : List Char).contains character

namespace Pending

def ended : Pending → Pending
  | .nothing => .nothing
  | .named name start _ => .named name start true
  | .called name start arguments => .called name start arguments

/-- The entry that the pending field gives when no block follows it. A field with arguments needs
a block. -/
def flush : Pending → Except ParseError (Option Entry)
  | .nothing => .ok none
  | .named name _ _ => .ok (some (.leaf name))
  | .called name start _ => .error (.argumentsWithoutSelection name start)

end Pending

namespace Level

def start : Level := ⟨[], .between .nothing⟩

/-- What a character does to a level: the level behind it and the entry that it completes. -/
abbrev Outcome := Except ParseError (Level × Option Entry)

def openArguments (openSets : List Position) (pending : Pending) (here : Position) : Outcome :=
  match pending with
  | .nothing => .error (.argumentsWithoutField here)
  | .named name start _ => .ok (⟨openSets, .arguments name start (.opened here)⟩, none)
  | .called name _ _ => .error (.duplicateArgumentList name here)

/-- An opening brace: a block if a field is pending, a nameless set if not. -/
def openBrace (openSets : List Position) (pending : Pending) (here : Position) : Outcome :=
  match pending with
  | .nothing => .ok (⟨here :: openSets, .between .nothing⟩, none)
  | .named name _ _ => .ok (⟨openSets, .block name .empty (.opened here)⟩, none)
  | .called name _ arguments => .ok (⟨openSets, .block name arguments (.opened here)⟩, none)

/-- A closing brace, which has to close a nameless set. -/
def closeBrace (openSets : List Position) (pending : Pending) (here : Position) : Outcome := do
  let entry ← pending.flush
  match openSets with
  | [] => throw (.unexpectedClosingBrace here)
  | _ :: outer => return (⟨outer, .between .nothing⟩, entry)

/-- A character of a field name: it joins an unfinished name and begins a new one otherwise. -/
def writeName (openSets : List Position) (pending : Pending) (character : Char)
    (here : Position) : Outcome :=
  match pending with
  | .named name start false =>
      .ok (⟨openSets, .between (.named (name.push character) start false)⟩, none)
  | _ => do
      let entry ← pending.flush
      return (⟨openSets, .between (.named (String.singleton character) here false)⟩, entry)

def stepBetween (openSets : List Position) (pending : Pending) (character : Char)
    (here : Position) : Outcome :=
  if character = '#' then .ok (⟨openSets, .comment pending.ended⟩, none)
  else if character = ',' then do
    let entry ← pending.flush
    return (⟨openSets, .between .nothing⟩, entry)
  else if Text.isBlank character then .ok (⟨openSets, .between pending.ended⟩, none)
  else if character = '(' then openArguments openSets pending here
  else if character = '{' then openBrace openSets pending here
  else if character = '}' then closeBrace openSets pending here
  else if isNameCharacter character then writeName openSets pending character here
  else .error (.unexpectedCharacter character here)

def step (level : Level) (character : Char) (here : Position) : Outcome :=
  match level.focus with
  | .between pending => stepBetween level.openSets pending character here
  | .comment pending =>
      let focus := if character = '\n' then Focus.between pending else .comment pending
      .ok (⟨level.openSets, focus⟩, none)
  | .arguments name start list => do
      match ← list.step character here with
      | .waiting list => return (⟨level.openSets, .arguments name start list⟩, none)
      | .closed arguments =>
          return (⟨level.openSets, .between (.called name start arguments)⟩, none)
  | .block name arguments block => do
      match ← block.step character here with
      | .waiting block => return (⟨level.openSets, .block name arguments block⟩, none)
      | .closed text =>
          return (⟨level.openSets, .between .nothing⟩,
            some (.block name arguments block.origin text))

/-- The end of the text: the entry that it completes, unless something is still open. -/
def finish (level : Level) : Except ParseError (Option Entry) :=
  match level.focus with
  | .arguments _ _ list => .error (.unterminatedArguments list.openedAt)
  | .block _ _ block => .error (.unterminatedBrace block.openedAt)
  | .between pending | .comment pending => do
      let entry ← pending.flush
      match level.openSets with
      | [] => return entry
      | innermost :: _ => throw (.unterminatedBrace innermost)

/-- What reading a level gives: its entries up to the first fault, and that fault. -/
structure Scan where
  entries : List Entry
  fault : Option ParseError
  deriving DecidableEq

namespace Scan

def prepend (entry : Option Entry) (scan : Scan) : Scan :=
  match entry with
  | none => scan
  | some entry => { scan with entries := entry :: scan.entries }

end Scan

def scan (level : Level) (here : Position) : List Char → Scan
  | [] =>
      match level.finish with
      | .ok entry => .prepend entry ⟨[], none⟩
      | .error fault => ⟨[], some fault⟩
  | character :: rest =>
      match level.step character here with
      | .ok (next, none) => next.scan (here.advance character) rest
      | .ok (next, some entry) =>
          .prepend (some entry) (next.scan (here.advance character) rest)
      | .error fault => ⟨[], some fault⟩

/-- The characters of an open block, its opening brace included. -/
private def held (level : Level) : Nat :=
  match level.focus with
  | .block _ _ block => block.text.length + 1
  | _ => 0

/-- The length of the text of a block, its opening brace included; zero for a leaf. -/
private def textLength : Entry → Nat
  | .leaf _ => 0
  | .block _ _ _ text => text.length + 1

/-- A step lengthens an open block by at most its character, and completes no more than what the
open block holds. -/
private def Modest (before : Nat) (outcome : Outcome) : Prop :=
  ∀ next entry, outcome = .ok (next, entry) →
    held next ≤ before + 1 ∧ ∀ complete ∈ entry, textLength complete ≤ before

private theorem modest_error (before : Nat) (fault : ParseError) : Modest before (.error fault) :=
  nofun

private theorem modest_ok {before : Nat} {level : Level} {entry : Option Entry}
    (level_le : held level ≤ before + 1)
    (entry_le : ∀ complete ∈ entry, textLength complete ≤ before) :
    Modest before (.ok (level, entry)) := by
  intro next completed equal
  cases equal
  exact ⟨level_le, entry_le⟩

private theorem modest_flush {before : Nat} (pending : Pending) {level : Level}
    (level_le : held level ≤ before + 1) :
    Modest before (do let entry ← pending.flush; return (level, entry)) := by
  cases pending with
  | nothing => exact modest_ok level_le nofun
  | named name start ended =>
      refine modest_ok level_le fun complete member => ?_
      cases member
      exact Nat.zero_le _
  | called => exact modest_error _ _

private theorem modest_stepBetween (openSets : List Position) (pending : Pending)
    (character : Char) (here : Position) :
    Modest 0 (stepBetween openSets pending character here) := by
  unfold stepBetween
  split
  · exact modest_ok (Nat.zero_le _) nofun
  split
  · exact modest_flush pending (Nat.zero_le _)
  split
  · exact modest_ok (Nat.zero_le _) nofun
  split
  · cases pending with
    | nothing => exact modest_error _ _
    | named => exact modest_ok (Nat.zero_le _) nofun
    | called => exact modest_error _ _
  split
  · cases pending with
    | nothing => exact modest_ok (Nat.zero_le _) nofun
    | named => exact modest_ok (Nat.le_refl _) nofun
    | called => exact modest_ok (Nat.le_refl _) nofun
  split
  · cases openSets with
    | nil => cases pending <;> exact modest_error _ _
    | cons => exact modest_flush pending (Nat.zero_le _)
  split
  · cases pending with
    | nothing => exact modest_flush .nothing (Nat.zero_le _)
    | named name start ended =>
        cases ended with
        | false => exact modest_ok (Nat.zero_le _) nofun
        | true => exact modest_flush (.named name start true) (Nat.zero_le _)
    | called => exact modest_error _ _
  · exact modest_error _ _

private theorem modest_step (level : Level) (character : Char) (here : Position) :
    Modest (held level) (level.step character here) := by
  obtain ⟨openSets, focus⟩ := level
  cases focus with
  | between pending => exact modest_stepBetween openSets pending character here
  | comment pending =>
      refine modest_ok ?_ nofun
      by_cases newline : character = '\n' <;> simp [held, newline]
  | arguments name start list =>
      simp only [step]
      match list.step character here with
      | .error fault => exact modest_error _ _
      | .ok (.waiting list) => exact modest_ok (Nat.zero_le _) nofun
      | .ok (.closed arguments) => exact modest_ok (Nat.zero_le _) nofun
  | block name arguments block =>
      simp only [step, Block.step]
      by_cases newline : character = '\n' ∧ block.surroundings.inArguments = true
      · rw [if_pos newline]
        exact modest_error _ _
      by_cases closing : block.bracesAfter character = 0
      · rw [if_neg newline, if_pos closing]
        refine modest_ok (Nat.zero_le _) fun complete member => ?_
        cases member
        exact Nat.le_refl _
      · rw [if_neg newline, if_neg closing]
        exact modest_ok (by simp [held]) nofun

private theorem textLength_of_finish {level : Level} {entry : Entry}
    (finished : level.finish = .ok (some entry)) : textLength entry = 0 := by
  have leaf {pending : Pending} (done : (do
      let complete ← pending.flush
      match level.openSets with
      | [] => return complete
      | innermost :: _ => throw (.unterminatedBrace innermost) : Except ParseError (Option Entry))
        = .ok (some entry)) : textLength entry = 0 := by
    obtain ⟨openSets, focus⟩ := level
    cases openSets <;> cases pending <;> cases done
    rfl
  obtain ⟨openSets, focus⟩ := level
  cases focus with
  | between pending => exact leaf finished
  | comment pending => exact leaf finished
  | arguments => exact nomatch finished
  | block => exact nomatch finished

private theorem textLength_le_of_mem_scan {level : Level} {here : Position} {text : List Char}
    {entry : Entry} (member : entry ∈ (level.scan here text).entries) :
    textLength entry ≤ held level + text.length := by
  induction text generalizing level here with
  | nil =>
      simp only [scan] at member
      split at member
      case h_1 complete finished =>
        cases complete with
        | none => exact nomatch member
        | some complete =>
            rw [List.mem_singleton.1 member, textLength_of_finish finished]
            exact Nat.zero_le _
      case h_2 => exact nomatch member
  | cons character rest ih =>
      have modest := modest_step level character here
      simp only [scan] at member
      split at member
      case h_1 next stepped =>
        have bound := ih member
        have grown := (modest next none stepped).1
        simp only [List.length_cons]
        omega
      case h_2 next complete stepped =>
        obtain ⟨grown, completed⟩ := modest next (some complete) stepped
        rcases List.mem_cons.1 member with here | there
        · have bound := completed complete rfl
          subst here
          omega
        · have bound := ih there
          simp only [List.length_cons]
          omega
      case h_3 => simp at member

/-- The text of a block is shorter than the text of the level that the block stands in. -/
theorem length_text_lt_of_mem_scan {here origin : Position} {text : List Char} {name body : String}
    {arguments : Arguments}
    (member : .block name arguments origin body ∈ (start.scan here text).entries) :
    body.length < text.length := by
  have bound := textLength_le_of_mem_scan member
  simp only [textLength, held, start] at bound
  omega

end Level

end FieldQuery.Query
