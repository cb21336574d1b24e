import FieldQuery.Proofs.Query.ArgumentListReading
import FieldQuery.Proofs.Query.PlacelessReading

/-!
# Readers and blanks

What a blank does to a reader, and why it does not matter beside a character that ends names, keys
and values anyway. In front of such a character the blank makes the same difference that the
character makes, and behind it there is nothing left to end. Only a bare value swallows braces,
parentheses and colons, with and without the blank, but then it never becomes a number.
-/

set_option autoImplicit false

namespace FieldQuery.Query

def isBoundary (character : Char) : Bool :=
  Text.isBlank character || (['{', '}', '(', ')', ',', ':'] : List Char).contains character

section

variable {character : Char} (boundary : isBoundary character = true)
include boundary

theorem blank_or_structural :
    Text.isBlank character = true ∨ character = '{' ∨ character = '}' ∨ character = '(' ∨
      character = ')' ∨ character = ',' ∨ character = ':' := by
  simpa [isBoundary] using boundary

theorem isNameCharacter_eq_false_of_isBoundary : isNameCharacter character = false := by
  rcases blank_or_structural boundary with blank | rfl | rfl | rfl | rfl | rfl | rfl
  · simp [isNameCharacter, blank]
  all_goals decide

theorem isKeyCharacter_eq_false_of_isBoundary : isKeyCharacter character = false := by
  rcases blank_or_structural boundary with blank | rfl | rfl | rfl | rfl | rfl | rfl
  · cases key : isKeyCharacter character with
    | false => rfl
    | true =>
        rw [isBlank_eq_false_of_isKeyCharacter key] at blank
        cases blank
  all_goals decide

theorem isNumeral_eq_false_of_isBoundary : Text.isNumeral character = false := by
  cases numeral : Text.isNumeral character with
  | false => rfl
  | true =>
      have notKey := isKeyCharacter_eq_false_of_isBoundary boundary
      simp only [isKeyCharacter, Bool.or_eq_false_iff] at notKey
      simp only [Text.isNumeral, Bool.or_eq_true, beq_iff_eq] at numeral
      rcases numeral with (digit | rfl) | rfl
      · rw [Text.isAlphanumeric_of_isDigit digit] at notKey
        exact notKey.1.1
      · exact boundary.symm.trans (by decide)
      · exact boundary.symm.trans (by decide)

theorem ne_quote_of_isBoundary : character ≠ '"' := Text.ne_of_accepts boundary (by decide)

end

namespace ArgumentList

/-- A bare value that is no number and never becomes one. -/
def Spoilt : Slot → Prop
  | .bare _ token _ => ∃ character ∈ token.toList, Text.isNumeral character = false
  | _ => False

theorem spoilt_push (key token : String) (spaced : Bool) {character : Char}
    (notNumeral : Text.isNumeral character = false) :
    Spoilt (.bare key (token.push character) spaced) :=
  ⟨character, by simp, notNumeral⟩

theorem Spoilt.blank {slot : Slot} (spoilt : Spoilt slot) : Spoilt (blank slot) := by
  cases slot with
  | key => cases spoilt
  | bare key token spaced => exact spoilt
  | quoted => cases spoilt

theorem Spoilt.commit {slot : Slot} (spoilt : Spoilt slot) (arguments : Arguments)
    (here : Position) : ∃ fault, commit arguments slot here = .error fault := by
  cases slot with
  | key => cases spoilt
  | bare key token spaced =>
      obtain ⟨character, member, notNumeral⟩ := spoilt
      simp only [ArgumentList.commit, Text.int64?_eq_none member notNumeral]
      split <;> exact ⟨_, rfl⟩
  | quoted => cases spoilt

theorem Spoilt.write {slot next : Slot} (spoilt : Spoilt slot) {character : Char}
    {here : Position} (written : write slot character here = .ok next) : Spoilt next := by
  cases slot with
  | key => cases spoilt
  | bare key token spaced =>
      obtain ⟨spoiling, member, notNumeral⟩ := spoilt
      simp only [ArgumentList.write] at written
      split at written
      · split at written
        · next empty => simp_all
        · cases written
      · cases written
        refine ⟨spoiling, ?_, notNumeral⟩
        cases spaced <;> simp [member]
  | quoted => cases spoilt

/-- A list with such a value stays as it is or is refused, whatever follows. -/
theorem Spoilt.step {list : ArgumentList} (spoilt : Spoilt list.slot) {character : Char}
    {here : Position} {progress : Progress ArgumentList Arguments}
    (stepped : list.step character here = .ok progress) :
    ∃ next, progress = .waiting next ∧ Spoilt next.slot := by
  have outside : list.slot.surroundings = .arguments := by
    generalize list.slot = slot at spoilt
    cases slot with
    | key => rfl
    | bare => rfl
    | quoted => cases spoilt
  by_cases newline : character = '\n'
  · simp [ArgumentList.step, newline] at stepped
  rw [step_eq_stepOutside here newline outside, stepOutside] at stepped
  obtain ⟨fault, refused⟩ := spoilt.commit list.arguments here
  split at stepped
  · rw [refused] at stepped
    cases stepped
  split at stepped
  · rw [refused] at stepped
    cases stepped
  split at stepped
  · cases stepped
    exact ⟨_, rfl, spoilt.blank⟩
  · obtain ⟨slot, written, waiting⟩ := Fallible.bind_eq_ok_iff.mp stepped
    cases waiting
    exact ⟨_, rfl, spoilt.write written⟩

theorem blank_blank (slot : Slot) : blank (blank slot) = blank slot := by
  cases slot <;> rfl

def spaced (list : ArgumentList) : ArgumentList := { list with slot := blank list.slot }

/-- In front of a boundary a blank changes nothing, or the boundary spoils the value. -/
theorem step_spaced (list : ArgumentList) {character : Char}
    (boundary : isBoundary character = true) (here : Position) :
    list.spaced.step character here = list.step character here ∨
      ∃ first second, list.step character here = .ok (.waiting first) ∧
        list.spaced.step character here = .ok (.waiting second) ∧
        Spoilt first.slot ∧ Spoilt second.slot := by
  obtain ⟨openedAt, arguments, slot⟩ := list
  cases slot with
  | quoted key text quotation => exact .inl rfl
  | key name ended =>
      left
      simp only [step, spaced, blank, stepOutside, commit, write,
        isKeyCharacter_eq_false_of_isBoundary boundary, Bool.and_false]
  | bare key token gap =>
      by_cases newline : character = '\n'
      · simp [step, newline]
      by_cases closing : character = ')'
      · subst closing
        exact .inl rfl
      by_cases comma : character = ','
      · subst comma
        exact .inl rfl
      by_cases isBlank : Text.isBlank character = true
      · left
        simp [step, spaced, blank, stepOutside, newline, closing, comma, isBlank]
      -- What is left are the characters that a bare value takes up, so it stops being a number
      -- with the blank in it and without.
      · right
        have inert : character ≠ '\n' ∧ character ≠ ')' ∧ character ≠ ',' ∧
            Text.isBlank character = false := ⟨newline, closing, comma, by simpa using isBlank⟩
        have swallows (gap : Bool) :
            step ⟨openedAt, arguments, .bare key token gap⟩ character here =
              .ok (.waiting ⟨openedAt, arguments,
                .bare key ((if gap then token.push ' ' else token).push character) false⟩) := by
          apply step_of_write openedAt arguments rfl inert
          rw [write, if_neg (ne_quote_of_isBoundary boundary)]
        have notNumeral := isNumeral_eq_false_of_isBoundary boundary
        exact ⟨_, _, swallows gap, swallows (!token.isEmpty), spoilt_push key _ false notNumeral,
          spoilt_push key _ false notNumeral⟩

/-- Behind a boundary a blank changes nothing, or the boundary has spoilt the value. -/
theorem spaced_of_step {list next : ArgumentList} {character : Char} {here : Position}
    (boundary : isBoundary character = true)
    (stepped : list.step character here = .ok (.waiting next)) :
    next.spaced = next ∨ Spoilt next.slot := by
  have notQuote := ne_quote_of_isBoundary boundary
  have notKey := isKeyCharacter_eq_false_of_isBoundary boundary
  simp only [step] at stepped
  split at stepped
  · cases stepped
  split at stepped
  · cases stepped
    left
    by_cases backslash : character = '\\' <;> simp [spaced, blank, backslash]
  · cases stepped
    exact .inl rfl
  simp only [stepOutside] at stepped
  split at stepped
  · obtain ⟨arguments, _, closed⟩ := Fallible.bind_eq_ok_iff.mp stepped
    cases closed
  split at stepped
  · obtain ⟨arguments, _, waiting⟩ := Fallible.bind_eq_ok_iff.mp stepped
    cases waiting
    exact .inl rfl
  split at stepped
  · cases stepped
    exact .inl (by simp only [spaced, blank_blank])
  obtain ⟨slot, written, waiting⟩ := Fallible.bind_eq_ok_iff.mp stepped
  cases waiting
  generalize list.slot = before at written
  cases before with
  | key name ended =>
      simp only [write, notKey, Bool.and_false] at written
      split at written
      · split at written <;> cases written
        exact .inl rfl
      · cases written
  | bare key token gap =>
      simp only [write, if_neg notQuote] at written
      cases written
      exact .inr (spoilt_push key _ false (isNumeral_eq_false_of_isBoundary boundary))
  | quoted key text quotation =>
      simp only [write, if_neg notQuote] at written
      cases written

end ArgumentList

theorem Slot.inArguments_surroundings (slot : Slot) : slot.surroundings.inArguments = true := by
  cases slot with
  | key => rfl
  | bare => rfl
  | quoted key text quotation => cases quotation <;> rfl

namespace Surroundings

variable {surroundings : Surroundings} (inside : surroundings.inArguments = true)
include inside

theorem after_ne_comment (character : Char) : surroundings.after character ≠ .comment := by
  cases surroundings with
  | plain => cases inside
  | comment => cases inside
  | escaped =>
      intro equal
      cases equal
  | arguments | quoted =>
      simp only [after]
      split
      · decide
      split <;> decide

theorem inArguments_after_return : (surroundings.after '\r').inArguments = true := by
  cases surroundings with
  | plain => cases inside
  | comment => cases inside
  | _ => rfl

end Surroundings

theorem Pending.ended_ended (pending : Pending) : pending.ended.ended = pending.ended := by
  cases pending <;> rfl

namespace OnePass

/-- A place behind a blank. Comments and quoted values are left alone. -/
def Place.spaced : Place → Place
  | .between pending => .between pending.ended
  | .comment pending => .comment pending
  | .arguments name start list => .arguments name start list.spaced

namespace Reader

def spaced (reader : Reader) : Reader := { reader with place := reader.place.spaced }

/-- A reader in an argument list with a spoilt value. -/
def Spoilt (reader : Reader) : Prop :=
  ∃ name start list, reader.place = .arguments name start list ∧ ArgumentList.Spoilt list.slot

variable {limit : DepthLimit} {reader after : Reader} {character : Char}

theorem gives_of_spoilt (spoilt : reader.Spoilt) (rest : List Char) :
    reader.gives limit rest = none := by
  induction rest generalizing reader with
  | nil =>
      obtain ⟨frames, selections, place⟩ := reader
      obtain ⟨name, start, list, rfl, _⟩ := spoilt
      cases frames <;> rfl
  | cons character rest ih =>
      obtain ⟨frames, selections, place⟩ := reader
      obtain ⟨name, start, list, rfl, spoilt⟩ := spoilt
      cases stepped : list.step character .start with
      | error fault => exact gives_of_refused (by simp only [next, step, stepped]) rest
      | ok progress =>
          obtain ⟨further, rfl, still⟩ := spoilt.step stepped
          have waits : next limit ⟨frames, selections, .arguments name start list⟩ character =
              some ⟨frames, selections, .arguments name start further⟩ := by
            simp only [next, step, stepped]
          rw [gives_of_next waits]
          exact ih ⟨name, start, further, rfl, still⟩

theorem Spoilt.spaced (spoilt : reader.Spoilt) : reader.spaced.Spoilt := by
  obtain ⟨name, start, list, place, spoilt⟩ := spoilt
  exact ⟨name, start, list.spaced, by rw [Reader.spaced, place, Place.spaced], spoilt.blank⟩

/-- What surrounds the characters behind one that a reader accepts, which is no line feed in an
argument list. -/
theorem surroundings_next (stepped : reader.next limit character = some after) :
    ¬ (character = '\n' ∧ reader.place.surroundings.inArguments = true) ∧
      after.place.surroundings = reader.place.surroundings.after character := by
  have watches : Watches
      ⟨.start, .start, "", reader.frames.length + 1, reader.place.surroundings⟩ reader :=
    ⟨rfl, rfl⟩
  obtain ⟨accepted, seen, _⟩ := seen_step watches stepped
  exact ⟨accepted, seen.symm⟩

def Tidy (reader : Reader) : Prop :=
  ∀ pending, reader.place = .comment pending → pending.ended = pending

theorem tidy_of_surroundings (notComment : reader.place.surroundings ≠ .comment) :
    reader.Tidy := by
  intro pending place
  rw [place] at notComment
  exact absurd rfl notComment

theorem Tidy.next (tidy : reader.Tidy) (stepped : reader.next limit character = some after) :
    after.Tidy := by
  obtain ⟨frames, selections, place⟩ := reader
  have seen := (surroundings_next stepped).2
  cases place with
  | between pending =>
      by_cases comment : character = '#'
      · subst comment
        cases stepped
        rintro _ ⟨rfl⟩
        exact pending.ended_ended
      · apply tidy_of_surroundings
        rw [seen]
        simp only [Place.surroundings, Surroundings.after, if_neg comment]
        split <;> decide
  | comment pending =>
      simp only [Reader.next, step] at stepped
      split at stepped <;> cases stepped
      · exact tidy_of_surroundings fun equal => by cases equal
      · exact tidy
  | arguments name start list =>
      apply tidy_of_surroundings
      rw [seen]
      exact Surroundings.after_ne_comment list.slot.inArguments_surroundings character

/-- A blank changes nothing behind this reader, or no blank can make the text a query. -/
def Settled (reader : Reader) : Prop := reader.spaced = reader ∨ reader.Spoilt

theorem Settled.gives_spaced (settled : reader.Settled) (rest : List Char) :
    reader.spaced.gives limit rest = reader.gives limit rest := by
  obtain same | spoilt := settled
  · rw [same]
  · rw [gives_of_spoilt spoilt, gives_of_spoilt spoilt.spaced]

theorem spaced_of_stepBetween {frames : List Frame} {selections : List Selection}
    {pending : Pending} {here : Position} (boundary : isBoundary character = true)
    (stepped : stepBetween limit 1 frames selections pending character here = some after) :
    after.spaced = after := by
  have notName := isNameCharacter_eq_false_of_isBoundary boundary
  simp only [stepBetween, notName] at stepped
  split at stepped
  · cases stepped
    rfl
  split at stepped
  · obtain ⟨complete, _, equal⟩ := Option.bind_eq_some_iff.mp stepped
    cases equal
    rfl
  split at stepped
  · cases stepped
    simp only [spaced, Place.spaced, Pending.ended_ended]
  split at stepped
  · cases pending <;> cases stepped
    rfl
  split at stepped
  · cases pending <;> simp only [openBrace, openBlock] at stepped
    · cases stepped
      rfl
    all_goals
      split at stepped <;> cases stepped
      rfl
  split at stepped
  · obtain ⟨complete, _, closed⟩ := Option.bind_eq_some_iff.mp stepped
    cases frames with
    | nil => cases closed
    | cons frame outer => cases frame <;> cases closed <;> rfl
  · cases stepped

theorem settled_next (tidy : reader.Tidy) (boundary : isBoundary character = true)
    (stepped : reader.next limit character = some after) : after.Settled := by
  obtain ⟨frames, selections, place⟩ := reader
  cases place with
  | between pending => exact .inl (spaced_of_stepBetween boundary stepped)
  | comment pending =>
      left
      simp only [next, step] at stepped
      split at stepped <;> cases stepped
      · simp only [spaced, Place.spaced, tidy pending rfl]
      · rfl
  | arguments name start list =>
      simp only [next, step] at stepped
      split at stepped
      · cases stepped
      · next further waits =>
          cases stepped
          obtain same | spoilt := ArgumentList.spaced_of_step boundary waits
          · exact .inl (by simp only [spaced, Place.spaced, same])
          · exact .inr ⟨name, start, further, rfl, spoilt⟩
      · cases stepped
        exact .inl rfl

theorem stepBetween_ended (frames : List Frame) (selections : List Selection) (pending : Pending)
    (notName : isNameCharacter character = false) (here : Position) :
    stepBetween limit 1 frames selections pending.ended character here =
      stepBetween limit 1 frames selections pending character here := by
  simp only [stepBetween, closeBrace, Pending.ended_ended, flush_ended, notName]
  cases pending <;> rfl

/-- A blank in front of a boundary changes nothing, except in comments and quoted values. -/
theorem gives_spaced (boundary : isBoundary character = true) (rest : List Char) :
    reader.spaced.gives limit (character :: rest) = reader.gives limit (character :: rest) := by
  obtain ⟨frames, selections, place⟩ := reader
  cases place with
  | between pending =>
      have notName := isNameCharacter_eq_false_of_isBoundary boundary
      have same : Reader.next limit ⟨frames, selections, .between pending.ended⟩ character =
          Reader.next limit ⟨frames, selections, .between pending⟩ character :=
        stepBetween_ended frames selections pending notName .start
      rw [gives_cons, gives_cons, spaced, Place.spaced, same]
  | comment pending => rfl
  | arguments name start list =>
      obtain same | ⟨first, second, waits, waitsSpaced, spoiltFirst, spoiltSecond⟩ :=
        list.step_spaced boundary .start
      · simp only [gives_cons, spaced, Place.spaced, next, step, same]
      · have spoils (further : ArgumentList) (spoilt : ArgumentList.Spoilt further.slot) :
            gives limit ⟨frames, selections, .arguments name start further⟩ rest = none :=
          gives_of_spoilt ⟨name, start, further, rfl, spoilt⟩ rest
        simp only [gives_cons, spaced, Place.spaced, next, step, waits, waitsSpaced,
          Option.bind_some, spoils first spoiltFirst, spoils second spoiltSecond]

theorem next_blank_of_plain (plain : reader.place.surroundings = .plain)
    (blank : Text.isBlank character = true) :
    reader.next limit character = some reader.spaced := by
  obtain ⟨frames, selections, place⟩ := reader
  cases place with
  | between pending =>
      have notHash : character ≠ '#' := Text.ne_of_accepts blank (by decide)
      have notComma : character ≠ ',' := Text.ne_of_accepts blank (by decide)
      simp only [next, step, stepBetween, if_neg notHash, if_neg notComma, if_pos blank]
      rfl
  | comment pending => cases plain
  | arguments name start list => exact absurd plain list.slot.surroundings_ne_plain

theorem next_blank_of_arguments (inside : reader.place.surroundings = .arguments)
    (blank : Text.isBlank character = true) (notNewline : character ≠ '\n') :
    reader.next limit character = some reader.spaced := by
  obtain ⟨frames, selections, place⟩ := reader
  cases place with
  | between pending => cases inside
  | comment pending => cases inside
  | arguments name start list =>
      have notClosing : character ≠ ')' := Text.ne_of_accepts blank (by decide)
      have notComma : character ≠ ',' := Text.ne_of_accepts blank (by decide)
      have waits : list.step character .start = .ok (.waiting list.spaced) := by
        rw [ArgumentList.step_eq_stepOutside .start notNewline inside, ArgumentList.stepOutside,
          if_neg notClosing, if_neg notComma, if_pos blank]
        rfl
      simp only [next, step, waits]
      rfl

/-- A whole comment is a blank. -/
theorem gives_comment (plain : reader.place.surroundings = .plain) {content : List Char}
    (noNewline : '\n' ∉ content) (rest : List Char) :
    reader.gives limit ('#' :: content ++ '\n' :: rest) = reader.spaced.gives limit rest := by
  obtain ⟨frames, selections, place⟩ := reader
  cases place with
  | between pending =>
      have inside : gives limit ⟨frames, selections, .comment pending.ended⟩
          (content ++ '\n' :: rest) =
          gives limit ⟨frames, selections, .between pending.ended⟩ rest := by
        induction content with
        | nil => exact gives_of_next rfl rest
        | cons character content ih =>
            rw [List.mem_cons, not_or] at noNewline
            have stays : next limit ⟨frames, selections, .comment pending.ended⟩ character =
                some ⟨frames, selections, .comment pending.ended⟩ := if_neg (Ne.symm noNewline.1)
            exact (gives_of_next stays _).trans (ih noNewline.2)
      exact (gives_of_next rfl _).trans inside
  | comment pending => cases plain
  | arguments name start list => exact absurd plain list.slot.surroundings_ne_plain

theorem next_newline_eq_none (inside : reader.place.surroundings.inArguments = true) :
    reader.next limit '\n' = none := by
  rw [Option.eq_none_iff_forall_ne_some]
  intro after stepped
  exact (surroundings_next stepped).1 ⟨rfl, inside⟩

/-- A carriage return in front of a line feed changes nothing. -/
theorem gives_return (rest : List Char) :
    reader.gives limit ('\r' :: '\n' :: rest) = reader.gives limit ('\n' :: rest) := by
  obtain ⟨frames, selections, place⟩ := reader
  cases place with
  | between pending =>
      rw [gives_of_next (next_blank_of_plain rfl (by decide)), gives_spaced (by decide)]
  | comment pending => exact gives_of_next rfl _
  | arguments name start list =>
      have inside : (Place.arguments name start list).surroundings.inArguments = true :=
        list.slot.inArguments_surroundings
      rw [gives_of_refused (next_newline_eq_none inside)]
      cases stepped : next limit ⟨frames, selections, .arguments name start list⟩ '\r' with
      | none => exact gives_of_refused stepped _
      | some after =>
          have stillInside : after.place.surroundings.inArguments = true := by
            rw [(surroundings_next stepped).2]
            exact Surroundings.inArguments_after_return inside
          rw [gives_of_next stepped, gives_of_refused (next_newline_eq_none stillInside)]

end Reader

end OnePass

end FieldQuery.Query
