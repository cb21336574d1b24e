import FieldQuery.Proofs.Query.ArgumentGrammar
import FieldQuery.Proofs.Query.ArgumentSlots

/-!
# What follows behind a slot

What has been read since the last comma is kept as a slot, and the grammar of argument lists says
what may follow behind a slot up to the next comma. Every step takes what may follow behind the
next slot to what may follow behind the one before. So whatever an argument list accepts belongs
to the grammar.
-/

set_option autoImplicit false

namespace FieldQuery.Query

/-- What may follow behind a quoted piece: blanks, with further quoted pieces between them. -/
inductive QuotedTail : List Char → List Char → Prop where
  | blanks {text : List Char} (blank : AllBlank text) : QuotedTail text []
  | piece {gap raw meaning tail more : List Char} (blank : AllBlank gap)
      (quoted : QuotedText raw meaning) (rest : QuotedTail tail more) :
      QuotedTail (gap ++ '"' :: (raw ++ '"' :: tail)) (meaning ++ more)

theorem QuotedTail.cons {character : Char} {tail more : List Char}
    (blank : Text.isBlank character = true) (rest : QuotedTail tail more) :
    QuotedTail (character :: tail) more := by
  cases rest with
  | blanks allBlank => exact .blanks (allBlank.cons blank)
  | piece allBlank quoted rest => exact .piece (allBlank.cons blank) quoted rest

theorem QuotedTail.quotedPieces {tail more raw meaning : List Char} (rest : QuotedTail tail more)
    (quoted : QuotedText raw meaning) :
    ∃ token behind, '"' :: (raw ++ '"' :: tail) = token ++ behind ∧
      QuotedPieces token (meaning ++ more) ∧ AllBlank behind := by
  induction rest generalizing raw meaning with
  | @blanks text blank =>
      refine ⟨'"' :: (raw ++ ['"']), text, by simp, ?_, blank⟩
      rw [List.append_nil]
      exact .last quoted
  | @piece gap _ _ _ _ blank inner _ ih =>
      obtain ⟨token, behind, same, pieces, allBlank⟩ := ih inner
      refine ⟨'"' :: (raw ++ '"' :: (gap ++ token)), behind, ?_, .more quoted blank pieces, allBlank⟩
      rw [same]
      simp

/-- What may follow behind a slot up to the next comma, and the pair that there is then. -/
inductive Slot.Continues : Slot → List Char → Option (String × ArgumentValue) → Prop where
  | empty {ended : Bool} {text : List Char} {content : Option (String × ArgumentValue)}
      (slot : SlotText text content) : Continues (.key "" ended) text content
  | key {name : String} {ended : Bool} {more gap rest : List Char} {value : ArgumentValue}
      (nonempty : name ≠ "") (joins : ended = true → more = [])
      (accepted : ∀ character ∈ more, isKeyCharacter character = true) (blank : AllBlank gap)
      (spaced : SpacedValue rest value) :
      Continues (.key name ended) (more ++ (gap ++ ':' :: rest))
        (some (name ++ String.ofList more, value))
  | value {key : String} {gap : Bool} {rest : List Char} {value : ArgumentValue}
      (spaced : SpacedValue rest value) : Continues (.bare key "" gap) rest (some (key, value))
  | bare {key token : String} {gap : Bool} {more behind : List Char} {value : Int}
      (nonempty : token ≠ "") (joins : gap = true → more = [])
      (numeral : Text.Numeral (token.toList ++ more) value) (fits : Numeric.InInt64 value)
      (blank : AllBlank behind) :
      Continues (.bare key token gap) (more ++ behind)
        (some (key, .integer (Int64.ofInt value)))
  | outside {key text : String} {tail more : List Char} (rest : QuotedTail tail more) :
      Continues (.quoted key text .outside) tail (some (key, .text (text ++ String.ofList more)))
  | inside {key text : String} {raw meaning tail more : List Char}
      (quoted : QuotedText raw meaning) (rest : QuotedTail tail more) :
      Continues (.quoted key text .inside) (raw ++ '"' :: tail)
        (some (key, .text (text ++ String.ofList (meaning ++ more))))
  | escaped {key text : String} {character : Char} {rest : List Char}
      {content : Option (String × ArgumentValue)}
      (inside : Continues (.quoted key (text.push (ArgumentList.unescape character)) .inside)
        rest content) : Continues (.quoted key text .escaped) (character :: rest) content

namespace Slot

theorem push_ne_empty (text : String) (character : Char) : text.push character ≠ "" := by
  intro empty
  have listed := congrArg String.toList empty
  rw [String.toList_push] at listed
  exact absurd listed (by simp)

theorem continues_empty_iff {text : List Char} {content : Option (String × ArgumentValue)} :
    Slot.empty.Continues text content ↔ SlotText text content := by
  constructor
  · intro continues
    cases continues with
    | empty slot => exact slot
    | key nonempty => exact absurd rfl nonempty
  · exact .empty

theorem Holds.continues {slot : Slot} {content : Option (String × ArgumentValue)}
    (holds : slot.Holds content) : slot.Continues [] content := by
  cases holds with
  | nothing => exact .empty (.blank nofun)
  | @integer key token gap value numeral fits =>
      have nonempty : token ≠ "" := by
        intro empty
        subst empty
        exact numeral.ne_nil rfl
      exact .bare nonempty (fun _ => rfl) (by simpa using numeral) fits nofun
  | @text key text =>
      have continues : Continues (.quoted key text .outside) []
          (some (key, .text (text ++ String.ofList []))) := .outside (.blanks nofun)
      simpa using continues

variable {slot next : Slot} {character : Char} {rest : List Char}
  {content : Option (String × ArgumentValue)}

theorem continues_of_blank (outside : slot.surroundings = .arguments)
    (blank : Text.isBlank character = true)
    (continues : (ArgumentList.blank slot).Continues rest content) :
    slot.Continues (character :: rest) content := by
  cases slot with
  | key name ended =>
      cases continues with
      | empty slot => exact .empty (slot.cons blank)
      | @key _ _ more gap rest value nonempty joins accepted blankGap spaced =>
          obtain rfl : more = [] := joins (by simpa using nonempty)
          have onward : Continues (.key name ended) ([] ++ (character :: gap ++ ':' :: rest))
              (some (name ++ String.ofList [], value)) :=
            .key nonempty (fun _ => rfl) accepted (blankGap.cons blank) spaced
          exact onward
  | bare key token gap =>
      cases continues with
      | value spaced => exact .value (spaced.cons blank)
      | @bare _ _ _ more behind value nonempty joins numeral fits blankBehind =>
          obtain rfl : more = [] := joins (by simpa using nonempty)
          have onward : Continues (.bare key token gap) ([] ++ character :: behind)
              (some (key, .integer (Int64.ofInt value))) :=
            .bare nonempty (fun _ => rfl) numeral fits (blankBehind.cons blank)
          exact onward
  | quoted key text quotation =>
      cases quotation with
      | outside =>
          cases continues with
          | outside tail => exact .outside (tail.cons blank)
      | inside | escaped => cases outside

theorem continues_of_colon {name : String} (nonempty : name ≠ "") (ended : Bool)
    (continues : (Slot.bare name "" false).Continues rest content) :
    (Slot.key name ended).Continues (':' :: rest) content := by
  cases continues with
  | @value _ _ rest value spaced =>
      have onward : Continues (.key name ended) ([] ++ ([] ++ ':' :: rest))
          (some (name ++ String.ofList [], value)) :=
        .key nonempty (fun _ => rfl) nofun nofun spaced
      simpa using onward
  | bare nonempty => exact absurd rfl nonempty

theorem continues_of_keyCharacter {name : String} (accepted : isKeyCharacter character = true)
    (continues : (Slot.key (name.push character) false).Continues rest content) :
    (Slot.key name false).Continues (character :: rest) content := by
  generalize pushed : name.push character = longer at continues
  cases continues with
  | empty => exact absurd pushed (push_ne_empty name character)
  | @key _ _ more gap rest value _ _ others blankGap spaced =>
      subst pushed
      rw [push_append_ofList]
      have eachAccepted : ∀ other ∈ character :: more, isKeyCharacter other = true :=
        List.forall_mem_cons.mpr ⟨accepted, others⟩
      by_cases empty : name = ""
      · subst empty
        have isKey : IsKey (String.ofList (character :: more)) :=
          ⟨by simp, by simpa using eachAccepted⟩
        have slot : SlotText ([] ++ ((String.ofList (character :: more)).toList ++
            (gap ++ ':' :: rest))) (some (String.ofList (character :: more), value)) :=
          .pair nofun isKey blankGap spaced
        exact .empty (by simpa using slot)
      · have onward : Continues (.key name false) (character :: more ++ (gap ++ ':' :: rest))
            (some (name ++ String.ofList (character :: more), value)) :=
          .key empty nofun eachAccepted blankGap spaced
        exact onward

theorem continues_of_opening_quote {key : String} (gap : Bool)
    (continues : (Slot.quoted key "" .inside).Continues rest content) :
    (Slot.bare key "" gap).Continues ('"' :: rest) content := by
  cases continues with
  | inside quoted tail =>
      obtain ⟨token, behind, same, pieces, allBlank⟩ := tail.quotedPieces quoted
      rw [String.empty_append]
      exact .value ⟨[], token, behind, same, nofun, .text pieces, allBlank⟩

theorem continues_of_further_quote {key text : String}
    (continues : (Slot.quoted key text .inside).Continues rest content) :
    (Slot.quoted key text .outside).Continues ('"' :: rest) content := by
  cases continues with
  | @inside _ _ raw meaning tail more quoted rest =>
      have onward : QuotedTail ([] ++ '"' :: (raw ++ '"' :: tail)) (meaning ++ more) :=
        .piece nofun quoted rest
      exact .outside onward

theorem continues_of_tokenCharacter {key token : String} {gap : Bool}
    (continues : (Slot.bare key ((if gap = true then token.push ' ' else token).push character)
      false).Continues rest content) :
    (Slot.bare key token gap).Continues (character :: rest) content := by
  generalize pushed : (if gap = true then token.push ' ' else token).push character = longer
    at continues
  cases continues with
  | value => exact absurd pushed (push_ne_empty _ character)
  | @bare _ _ _ more behind value _ _ numeral fits blankBehind =>
      subst pushed
      cases gap with
      | true =>
          -- A blank inside a token stays there, and no numeral has one.
          have accepted : Text.isNumeral ' ' = true := numeral.isNumeral (by simp)
          exact absurd accepted (by decide)
      | false =>
          have whole : Text.Numeral (token.toList ++ character :: more) value := by
            simpa using numeral
          by_cases empty : token = ""
          · subst empty
            exact .value ⟨[], character :: more, behind, rfl, nofun, .integer whole fits,
              blankBehind⟩
          · have onward : Continues (.bare key token false) (character :: more ++ behind)
                (some (key, .integer (Int64.ofInt value))) :=
              .bare empty nofun whole fits blankBehind
            exact onward

theorem continues_of_write {here : Position} (outside : slot.surroundings = .arguments)
    (written : ArgumentList.write slot character here = .ok next)
    (continues : next.Continues rest content) : slot.Continues (character :: rest) content := by
  cases slot with
  | key name ended =>
      simp only [ArgumentList.write] at written
      split at written
      · next colon =>
          subst colon
          split at written
          · cases written
          · next nonempty =>
              cases written
              exact continues_of_colon (by simpa using nonempty) ended continues
      split at written
      · next accepted =>
          cases written
          obtain ⟨unfinished, accepted⟩ := Bool.and_eq_true_iff.mp accepted
          obtain rfl : ended = false := by simpa using unfinished
          exact continues_of_keyCharacter accepted continues
      · cases written
  | bare key token gap =>
      simp only [ArgumentList.write] at written
      split at written
      · next quote =>
          subst quote
          split at written
          · next empty =>
              cases written
              obtain rfl := String.isEmpty_iff.mp empty
              exact continues_of_opening_quote gap continues
          · cases written
      · cases written
        exact continues_of_tokenCharacter continues
  | quoted key text quotation =>
      simp only [ArgumentList.write] at written
      split at written
      · next quote =>
          subst quote
          cases written
          cases quotation with
          | outside => exact continues_of_further_quote continues
          | inside | escaped => cases outside
      · cases written

theorem continues_of_moves (moves : slot.Moves character next)
    (continues : next.Continues rest content) : slot.Continues (character :: rest) content := by
  cases moves with
  | blank outside blank => exact continues_of_blank outside blank continues
  | write outside written => exact continues_of_write outside written continues
  | plain notQuote notBackslash =>
      cases continues with
      | inside quoted tail =>
          rw [push_append_ofList]
          exact .inside (.plain notQuote notBackslash quoted) tail
  | close =>
      cases continues with
      | outside tail => exact .inside .nil tail
  | escape =>
      cases continues with
      | escaped inside =>
          cases inside with
          | inside quoted tail =>
              rw [push_append_ofList]
              exact .inside (.escape quoted) tail
  | unescape => exact .escaped continues

end Slot

namespace ArgumentList

/-- A list is closed by the parenthesis right behind a text. -/
def ClosesBehind (list : ArgumentList) (here : Position) (text : List Char)
    (arguments : Arguments) : Prop :=
  ∃ last, list.feed here text = some last ∧
    last.step ')' (here.after text) = .ok (.closed arguments)

/-- What a list accepts behind a slot is what may follow behind the slot, and then pieces of the
grammar. -/
theorem grammar_of_closesBehind {openedAt here : Position} {before after : Arguments} {slot : Slot}
    {text : List Char} (closes : ClosesBehind ⟨openedAt, before, slot⟩ here text after) :
    '\n' ∉ text ∧ ∃ piece texts content contents, text = [','].intercalate (piece :: texts) ∧
      slot.Continues piece content ∧ List.Forall₂ SlotText texts contents ∧
      Adds before (content :: contents) after := by
  induction text generalizing before slot here with
  | nil =>
      obtain ⟨last, fed, closed⟩ := closes
      cases fed
      obtain ⟨_, content, holds, adds⟩ := step_closed_iff.mp closed
      exact ⟨nofun, [], [], content, [], rfl, holds.continues, .nil, adds⟩
  | cons character rest ih =>
      obtain ⟨last, fed, closed⟩ := closes
      rw [feed] at fed
      split at fed
      · next next stepped =>
          obtain ⟨notNewline, cut | inside⟩ := step_waiting_cases stepped
          · obtain ⟨rfl, _, content, arguments, holds, adds, rfl⟩ := cut
            obtain ⟨noNewline, piece, texts, inner, contents, rfl, continues, slots, more⟩ :=
              ih ⟨last, fed, closed⟩
            refine ⟨by simp [noNewline], [], piece :: texts, content, inner :: contents, ?_,
              holds.continues, .cons (Slot.continues_empty_iff.mp continues) slots,
              adds_cons_iff.mpr ⟨arguments, adds, more⟩⟩
            rw [List.intercalate_cons_cons]
            rfl
          · obtain ⟨moved, moves, rfl⟩ := inside
            obtain ⟨noNewline, piece, texts, content, contents, rfl, continues, slots, adds⟩ :=
              ih ⟨last, fed, closed⟩
            refine ⟨?_, character :: piece, texts, content, contents, ?_,
              Slot.continues_of_moves moves continues, slots, adds⟩
            · simp [noNewline, notNewline.symm]
            · cases texts <;> simp [List.intercalate_cons_cons]
      · cases fed

end ArgumentList

end FieldQuery.Query
