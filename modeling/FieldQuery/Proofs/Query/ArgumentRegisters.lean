import FieldQuery.Proofs.Query.ArgumentSlots
import FieldQuery.Proofs.Query.ErrorPlaces
import FieldQuery.Proofs.Query.WellFormedness

/-!
# Argument lists in registers

An argument list can be read with one register for each thing that is known of it: the key and the
value that are being written, and flags for what has been seen of them. Registers have more states
than an argument list with its slot. Every state that they reach is one that a slot describes, and
from there they do what the list with that slot does, so no flag outlives the pair that it is about.
-/

set_option autoImplicit false

namespace FieldQuery.Query

open Fallible

def Progress.seenAs {State Seen Result : Type} (view : State → Seen) :
    Progress State Result → Progress Seen Result
  | .waiting state => .waiting (view state)
  | .closed result => .closed result

/-- An argument list that is not closed yet, in registers. -/
structure ArgumentRegisters where
  /-- The position of the opening parenthesis. -/
  openedAt : Position
  /-- The pairs that a comma has completed. -/
  arguments : Arguments
  key : String
  value : String
  /-- A colon stands behind the key. -/
  writingValue : Bool
  /-- The value has a quoted piece. -/
  quoted : Bool
  inQuote : Bool
  /-- A backslash stands in front of the next character. -/
  escaped : Bool
  /-- A blank stands behind a key or a bare value that has begun. -/
  gap : Bool
  deriving DecidableEq

namespace ArgumentRegisters

def opened (openedAt : Position) : ArgumentRegisters :=
  ⟨openedAt, .empty, "", "", false, false, false, false, false⟩

def complete (registers : ArgumentRegisters) (here : Position) : Except ParseError ArgumentValue :=
  if registers.quoted then .ok (.text registers.value)
  else if registers.value.isEmpty then .error (.missingArgumentValue registers.key here)
  else
    match Text.int64? registers.value with
    | some value => .ok (.integer value)
    | none => .error (.invalidArgumentValue registers.key registers.value here)

/-- The comma or parenthesis at `here` completes the pair. Where no pair has begun, every register
is left as it stands. -/
def commit (registers : ArgumentRegisters) (here : Position) :
    Except ParseError ArgumentRegisters :=
  if registers.writingValue then do
    let value ← registers.complete here
    let arguments ← ArgumentList.add registers.arguments registers.key value here
    return { registers with
      arguments, key := "", value := "", writingValue := false, quoted := false, gap := false }
  else if registers.key.isEmpty then .ok registers
  else .error (.missingArgumentValue registers.key here)

def stepQuoted (registers : ArgumentRegisters) (character : Char) : ArgumentRegisters :=
  if registers.escaped then
    { registers with
      escaped := false, value := registers.value.push (ArgumentList.unescape character) }
  else if character = '\\' then { registers with escaped := true }
  else if character = '"' then { registers with inQuote := false }
  else { registers with value := registers.value.push character }

def blank (registers : ArgumentRegisters) : ArgumentRegisters :=
  { registers with
    gap :=
      if registers.writingValue then !registers.quoted && !registers.value.isEmpty
      else !registers.key.isEmpty }

def write (registers : ArgumentRegisters) (character : Char) (here : Position) :
    Except ParseError ArgumentRegisters :=
  if registers.writingValue then
    if character = '"' then
      if !registers.quoted && !registers.value.isEmpty then
        .error (.invalidArgumentValue registers.key (registers.value.push '"') here)
      else .ok { registers with quoted := true, inQuote := true }
    else if registers.quoted then .error (.unexpectedCharacter character here)
    else
      let joined := if registers.gap then registers.value.push ' ' else registers.value
      .ok { registers with value := joined.push character, gap := false }
  else if character = ':' then
    if registers.key.isEmpty then .error (.missingArgumentKey here)
    else .ok { registers with writingValue := true, gap := false }
  else if registers.gap then .error (.unexpectedCharacter character here)
  else if isKeyCharacter character then
    .ok { registers with key := registers.key.push character }
  else .error (.unexpectedCharacter character here)

def step (registers : ArgumentRegisters) (character : Char) (here : Position) :
    Except ParseError (Progress ArgumentRegisters Arguments) :=
  if character = '\n' then .error (.newlineInArguments here)
  else if registers.inQuote then .ok (.waiting (registers.stepQuoted character))
  else if character = ')' then do
    let committed ← registers.commit here
    return .closed committed.arguments
  else if character = ',' then do
    let committed ← registers.commit here
    return .waiting committed
  else if Text.isBlank character then .ok (.waiting registers.blank)
  else do
    let written ← registers.write character here
    return .waiting written

def feed (registers : ArgumentRegisters) (here : Position) :
    List Char → Option ArgumentRegisters
  | [] => some registers
  | character :: rest =>
      match registers.step character here with
      | .ok (.waiting next) => next.feed (here.advance character) rest
      | _ => none

/-- What the registers know fits together. -/
structure Coherent (registers : ArgumentRegisters) : Prop where
  inQuote_of_escaped : registers.escaped = true → registers.inQuote = true
  quoted_of_inQuote : registers.inQuote = true → registers.quoted = true
  writingValue_of_quoted : registers.quoted = true → registers.writingValue = true
  key_of_writingValue : registers.writingValue = true → registers.key ≠ ""
  value_of_not_writingValue : registers.writingValue = false → registers.value = ""
  gap : registers.gap = true →
    (registers.writingValue = false ∧ registers.key ≠ "") ∨
      (registers.writingValue = true ∧ registers.quoted = false ∧ registers.value ≠ "")
  key : ∀ character ∈ registers.key.toList, isKeyCharacter character = true
  keys : HasKeys registers.arguments

end ArgumentRegisters

/-! ## The registers of a list -/

namespace Slot

/-- A blank is noted only behind something that has begun. -/
def Noted : Slot → Prop
  | .key name ended => ended = true → name ≠ ""
  | .bare _ token spaced => spaced = true → token ≠ ""
  | .quoted _ _ _ => True

end Slot

namespace ArgumentList

def registers (list : ArgumentList) : ArgumentRegisters :=
  match list.slot with
  | .key name ended =>
      ⟨list.openedAt, list.arguments, name, "", false, false, false, false, ended⟩
  | .bare key token spaced =>
      ⟨list.openedAt, list.arguments, key, token, true, false, false, false, spaced⟩
  | .quoted key text .outside =>
      ⟨list.openedAt, list.arguments, key, text, true, true, false, false, false⟩
  | .quoted key text .inside =>
      ⟨list.openedAt, list.arguments, key, text, true, true, true, false, false⟩
  | .quoted key text .escaped =>
      ⟨list.openedAt, list.arguments, key, text, true, true, true, true, false⟩

theorem coherent_registers (list : ArgumentList) (accepted : list.KeysAccepted)
    (noted : list.slot.Noted) : list.registers.Coherent := by
  obtain ⟨openedAt, arguments, slot⟩ := list
  obtain ⟨keys, hasKey⟩ := accepted
  cases slot with
  | key name ended =>
      exact ⟨nofun, nofun, nofun, nofun, fun _ => rfl, fun gap => .inl ⟨rfl, noted gap⟩, hasKey,
        keys⟩
  | bare key token spaced =>
      obtain ⟨nonempty, ofKey⟩ := hasKey
      exact ⟨nofun, nofun, nofun, fun _ => nonempty, nofun,
        fun gap => .inr ⟨rfl, rfl, noted gap⟩, ofKey, keys⟩
  | quoted key text quotation =>
      obtain ⟨nonempty, ofKey⟩ := hasKey
      cases quotation with
      | outside =>
          exact ⟨nofun, nofun, fun _ => rfl, fun _ => nonempty, nofun, nofun, ofKey, keys⟩
      | inside =>
          exact ⟨nofun, fun _ => rfl, fun _ => rfl, fun _ => nonempty, nofun, nofun, ofKey, keys⟩
      | escaped =>
          exact ⟨fun _ => rfl, fun _ => rfl, fun _ => rfl, fun _ => nonempty, nofun, nofun, ofKey,
            keys⟩

theorem inQuote_registers {list : ArgumentList} :
    list.registers.inQuote = false ↔ list.slot.surroundings = .arguments := by
  obtain ⟨openedAt, arguments, slot⟩ := list
  cases slot with
  | key name ended => exact ⟨fun _ => rfl, fun _ => rfl⟩
  | bare key token spaced => exact ⟨fun _ => rfl, fun _ => rfl⟩
  | quoted key text quotation =>
      cases quotation with
      | outside => exact ⟨fun _ => rfl, fun _ => rfl⟩
      | inside => exact ⟨nofun, nofun⟩
      | escaped => exact ⟨nofun, nofun⟩

theorem arguments_registers (list : ArgumentList) : list.registers.arguments = list.arguments := by
  obtain ⟨openedAt, arguments, slot⟩ := list
  cases slot with
  | key name ended => rfl
  | bare key token spaced => rfl
  | quoted key text quotation => cases quotation <;> rfl

/-! ## What registers do -/

section

variable {openedAt here : Position} {arguments : Arguments} {slot : Slot} {character : Char}

/-- Completing a pair leaves nothing of it in the registers. -/
theorem commit_registers (noted : slot.Noted) (outside : slot.surroundings = .arguments) :
    (registers ⟨openedAt, arguments, slot⟩).commit here =
      (commit arguments slot here).map fun after => registers ⟨openedAt, after, .empty⟩ := by
  have added (key : String) (value : ArgumentValue) :
      (do
        let after ← add arguments key value here
        return registers ⟨openedAt, after, .empty⟩) =
      (add arguments key value here).map fun after => registers ⟨openedAt, after, .empty⟩ := by
    cases add arguments key value here <;> rfl
  cases slot with
  | key name ended =>
      by_cases empty : name.isEmpty
      · -- No register is reset here, but none is in need of it: no blank is noted behind nothing.
        obtain rfl := String.isEmpty_iff.mp empty
        have notEnded : ended = false := Bool.eq_false_iff.mpr fun ended => noted ended rfl
        rw [notEnded]
        rfl
      · simp only [commit, registers, ArgumentRegisters.commit, Bool.false_eq_true, empty, if_false]
        rfl
  | bare key token spaced =>
      simp only [commit, registers, ArgumentRegisters.commit, ArgumentRegisters.complete,
        Bool.false_eq_true, if_true, if_false]
      by_cases empty : token.isEmpty
      · simp only [empty, if_true]
        rfl
      · simp only [empty, Bool.false_eq_true, if_false]
        cases Text.int64? token with
        | none => rfl
        | some value => exact added key (.integer value)
  | quoted key text quotation =>
      cases quotation with
      | inside => cases outside
      | escaped => cases outside
      | outside => exact added key (.text text)

theorem write_registers (noted : slot.Noted) (outside : slot.surroundings = .arguments) :
    (registers ⟨openedAt, arguments, slot⟩).write character here =
      (write slot character here).map fun next => registers ⟨openedAt, arguments, next⟩ := by
  cases slot with
  | key name ended =>
      simp only [write, registers, ArgumentRegisters.write, Bool.false_eq_true, if_false]
      by_cases colon : character = ':'
      · simp only [colon, if_true]
        by_cases empty : name.isEmpty
        · simp only [empty, if_true]
          rfl
        · simp only [empty, Bool.false_eq_true, if_false]
          rfl
      · simp only [colon, if_false]
        cases ended with
        | true => rfl
        | false =>
            simp only [Bool.not_false, Bool.true_and, Bool.false_eq_true, if_false]
            split <;> rfl
  | bare key token spaced =>
      simp only [write, registers, ArgumentRegisters.write, if_true]
      by_cases quote : character = '"'
      · simp only [quote, if_true]
        by_cases empty : token.isEmpty
        · obtain rfl := String.isEmpty_iff.mp empty
          have notSpaced : spaced = false := Bool.eq_false_iff.mpr fun spaced => noted spaced rfl
          rw [notSpaced]
          rfl
        · simp only [empty, Bool.not_false, Bool.and_self, Bool.false_eq_true, if_true, if_false]
          rfl
      · simp only [quote, Bool.false_eq_true, if_false]
        rfl
  | quoted key text quotation =>
      cases quotation with
      | inside => cases outside
      | escaped => cases outside
      | outside =>
          simp only [write, registers, ArgumentRegisters.write, if_true]
          split <;> rfl

theorem blank_registers (outside : slot.surroundings = .arguments) :
    (registers ⟨openedAt, arguments, slot⟩).blank =
      registers ⟨openedAt, arguments, blank slot⟩ := by
  cases slot with
  | key name ended => rfl
  | bare key token spaced => rfl
  | quoted key text quotation =>
      cases quotation with
      | inside => cases outside
      | escaped => cases outside
      | outside => rfl

/-- From the registers of a list a character leads to the registers of the list behind it. -/
theorem step_registers (list : ArgumentList) (noted : list.slot.Noted) :
    list.registers.step character here = (list.step character here).map (.seenAs registers) := by
  obtain ⟨openedAt, arguments, slot⟩ := list
  by_cases outside : slot.surroundings = .arguments
  · rw [ArgumentRegisters.step, inQuote_registers.mpr outside]
    by_cases newline : character = '\n'
    · rw [if_pos newline, step, if_pos newline]
      rfl
    rw [if_neg newline, if_neg Bool.false_ne_true, step_eq_stepOutside here newline outside,
      stepOutside, commit_registers noted outside, write_registers noted outside,
      blank_registers outside]
    split
    · cases commit arguments slot here <;> rfl
    split
    · cases commit arguments slot here <;> rfl
    split
    · rfl
    · cases write slot character here <;> rfl
  · cases slot with
    | key name ended => exact absurd rfl outside
    | bare key token spaced => exact absurd rfl outside
    | quoted key text quotation =>
        cases quotation with
        | outside => exact absurd rfl outside
        | inside =>
            simp only [ArgumentRegisters.step, step]
            split
            · rfl
            · simp only [registers, if_true, ArgumentRegisters.stepQuoted, Bool.false_eq_true,
                if_false]
              split
              · rfl
              split <;> rfl
        | escaped =>
            simp only [ArgumentRegisters.step, step]
            split <;> rfl

end

/-! ## Runs -/

end ArgumentList

theorem Slot.noted_write {slot next : Slot} {character : Char} {here : Position}
    (written : ArgumentList.write slot character here = .ok next) : next.Noted := by
  cases slot with
  | key name ended =>
      simp only [ArgumentList.write] at written
      split at written
      · split at written <;> cases written
        exact fun spaced => absurd spaced Bool.false_ne_true
      · split at written <;> cases written
        exact fun ended => absurd ended Bool.false_ne_true
  | bare key token spaced =>
      simp only [ArgumentList.write] at written
      split at written
      · split at written <;> cases written
        trivial
      · cases written
        exact fun spaced => absurd spaced Bool.false_ne_true
  | quoted key text quotation =>
      simp only [ArgumentList.write] at written
      split at written <;> cases written
      trivial

theorem Slot.Moves.noted {slot next : Slot} {character : Char} (moves : slot.Moves character next) :
    next.Noted := by
  cases moves with
  | plain => trivial
  | close => trivial
  | escape => trivial
  | unescape => trivial
  | write outside written => exact noted_write written
  | blank outside blank =>
      cases slot with
      | key name ended => simp [ArgumentList.blank, Noted]
      | bare key token spaced => simp [ArgumentList.blank, Noted]
      | quoted key text quotation => trivial

namespace ArgumentList

section

variable {list last : ArgumentList} {here : Position} {text : List Char}

theorem noted_of_step {next : ArgumentList} {character : Char}
    (stepped : list.step character here = .ok (.waiting next)) : next.slot.Noted := by
  obtain ⟨_, ⟨_, _, content, arguments, _, _, rfl⟩ | ⟨moved, moves, rfl⟩⟩ :=
    step_waiting_cases stepped
  · nofun
  · exact moves.noted

/-- A run of the registers of a list is the run of the list. -/
theorem feed_registers (list : ArgumentList) (noted : list.slot.Noted) (here : Position)
    (text : List Char) :
    list.registers.feed here text = (list.feed here text).map registers := by
  induction text generalizing list here with
  | nil => rfl
  | cons character rest ih =>
      simp only [ArgumentRegisters.feed, feed, step_registers list noted]
      cases stepped : list.step character here with
      | error => rfl
      | ok progress =>
          cases progress with
          | waiting next => exact ih next (noted_of_step stepped) (here.advance character)
          | closed arguments => rfl

/-- What a run keeps of a list: its parenthesis, and keys and blanks that are in order. -/
theorem keysAccepted_of_feed (accepted : list.KeysAccepted) (noted : list.slot.Noted)
    (fed : list.feed here text = some last) :
    last.KeysAccepted ∧ last.slot.Noted ∧ last.openedAt = list.openedAt := by
  induction text generalizing list here with
  | nil =>
      cases fed
      exact ⟨accepted, noted, rfl⟩
  | cons character rest ih =>
      simp only [feed] at fed
      split at fed
      · next next stepped =>
          obtain ⟨keys, blanks, openedAt⟩ :=
            ih (keysAccepted_step accepted stepped) (noted_of_step stepped) fed
          exact ⟨keys, blanks, openedAt.trans (openedAt_of_step stepped)⟩
      · cases fed

end

end ArgumentList

/-- At most one pair is new, under a new key, and all pairs from before are kept. -/
def AddsAtMostOne (before after : Arguments) : Prop :=
  after = before ∨ ∃ key value, before.get? key = none ∧
    ∀ other, after.get? other = if other = key then some value else before.get? other

theorem addsAtMostOne_of_adds {before after : Arguments} {content : Option (String × ArgumentValue)}
    (adds : Adds before [content] after) : AddsAtMostOne before after := by
  cases adds with
  | nothing rest =>
      cases rest
      exact .inl rfl
  | @pair _ _ key value _ fresh rest =>
      cases rest
      exact .inr ⟨key, value, Dict.contains_eq_false_iff.mp fresh,
        fun other => Dict.get?_insert before key other value⟩

/-- A comma outside quotation marks takes all registers but the arguments back to the start. -/
theorem ArgumentList.step_comma_registers {list : ArgumentList} {here : Position}
    {progress : Progress ArgumentRegisters Arguments} (noted : list.slot.Noted)
    (outside : list.slot.surroundings = .arguments)
    (stepped : list.registers.step ',' here = .ok progress) :
    ∃ after,
      progress = .waiting { ArgumentRegisters.opened list.openedAt with arguments := after } ∧
        AddsAtMostOne list.arguments after := by
  obtain ⟨openedAt, arguments, slot⟩ := list
  rw [ArgumentRegisters.step, inQuote_registers.mpr outside, if_neg (by decide),
    if_neg Bool.false_ne_true, if_neg (by decide), if_pos rfl,
    commit_registers noted outside] at stepped
  obtain ⟨committed, completed, returned⟩ := bind_eq_ok_iff.mp stepped
  cases returned
  cases done : commit arguments slot here with
  | error =>
      rw [done] at completed
      cases completed
  | ok after =>
      rw [done] at completed
      cases completed
      obtain ⟨content, _, adds⟩ := (commit_eq_ok_iff outside).mp done
      exact ⟨after, rfl, addsAtMostOne_of_adds adds⟩

namespace ArgumentRegisters

/-- Whatever is read, the registers fit together, and they are those of the list that is read. A
comma outside quotation marks takes them back to the start but for the arguments, which gain at most
one pair. -/
theorem reached_coherent (openedAt here : Position) (text : List Char) :
    (opened openedAt).feed here text =
        ((ArgumentList.opened openedAt).feed here text).map ArgumentList.registers ∧
      ∀ registers, (opened openedAt).feed here text = some registers →
        registers.Coherent ∧
        (∃ list, (ArgumentList.opened openedAt).feed here text = some list ∧
          registers = list.registers ∧
          ∀ character there, registers.step character there =
            (list.step character there).map (.seenAs ArgumentList.registers)) ∧
        (registers.inQuote = false → ∀ there progress, registers.step ',' there = .ok progress →
          ∃ arguments, progress = .waiting { opened openedAt with arguments } ∧
            AddsAtMostOne registers.arguments arguments) := by
  have whole : (opened openedAt).feed here text =
      ((ArgumentList.opened openedAt).feed here text).map ArgumentList.registers :=
    (ArgumentList.opened openedAt).feed_registers nofun here text
  refine ⟨whole, ?_⟩
  intro registers fed
  obtain ⟨list, listFed, rfl⟩ := Option.map_eq_some_iff.mp (whole.symm.trans fed)
  obtain ⟨accepted, noted, opening⟩ := ArgumentList.keysAccepted_of_feed
    (ArgumentList.keysAccepted_opened openedAt) nofun listFed
  refine ⟨list.coherent_registers accepted noted,
    ⟨list, listFed, rfl, fun character there => list.step_registers noted⟩, ?_⟩
  intro notInQuote there progress stepped
  have opening : list.openedAt = openedAt := opening
  rw [ArgumentList.arguments_registers, ← opening]
  exact ArgumentList.step_comma_registers noted
    (ArgumentList.inQuote_registers.mp notInQuote) stepped

/-- A value in two pieces, with blanks behind its key and behind itself. -/
def spacedPair : String := "a : \"x\\n\" \"y\" "

theorem reached_coherent_spacedPair :
    ∃ registers,
      (opened ⟨1, 6⟩).feed ⟨1, 7⟩ spacedPair.toList = some registers ∧
        registers = ⟨⟨1, 6⟩, .empty, "a", "x\ny", true, true, false, false, false⟩ ∧
        registers.Coherent ∧ registers.inQuote = false ∧
        ∃ arguments, registers.step ',' ⟨1, 21⟩ = .ok (.waiting { opened ⟨1, 6⟩ with arguments }) ∧
          arguments.get? "a" = some (.text "x\ny") ∧ AddsAtMostOne .empty arguments := by
  have fed : (opened ⟨1, 6⟩).feed ⟨1, 7⟩ spacedPair.toList =
      some ⟨⟨1, 6⟩, .empty, "a", "x\ny", true, true, false, false, false⟩ := by decide +kernel
  obtain ⟨coherent, _, comma⟩ := (reached_coherent ⟨1, 6⟩ ⟨1, 7⟩ spacedPair.toList).2 _ fed
  obtain ⟨arguments, same, adds⟩ := comma rfl ⟨1, 21⟩ _ rfl
  cases same
  exact ⟨_, fed, rfl, coherent, rfl, _, rfl, by decide, adds⟩

end ArgumentRegisters

end FieldQuery.Query
