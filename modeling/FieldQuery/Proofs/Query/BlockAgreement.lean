import FieldQuery.Proofs.Fallible
import FieldQuery.Proofs.Query.OnePass
import FieldQuery.Proofs.Text.CharacterClasses

/-!
# What surrounds the characters of a block

A block is collected by following nothing but comments, argument lists and quotation marks. The
theorems here say that wherever the characters of a block can be read at all, this agrees with
reading them: the block is waiting exactly as long as the reader inside it is.
-/

set_option autoImplicit false

namespace FieldQuery.Query

open Fallible

def Slot.surroundings : Slot → Surroundings
  | .quoted _ _ .inside => .quoted
  | .quoted _ _ .escaped => .escaped
  | _ => .arguments

theorem Slot.surroundings_ne_plain (slot : Slot) : slot.surroundings ≠ .plain := by
  cases slot with
  | key => nofun
  | bare => nofun
  | quoted key text quotation => cases quotation <;> nofun

namespace ArgumentList

def surroundingsAfter : Progress ArgumentList Arguments → Surroundings
  | .waiting list => list.slot.surroundings
  | .closed _ => .plain

private theorem surroundings_blank {slot : Slot} (outside : slot.surroundings = .arguments) :
    (blank slot).surroundings = .arguments := by
  cases slot with
  | key => rfl
  | bare => rfl
  | quoted key text quotation => exact outside

private theorem surroundings_write {slot next : Slot} {character : Char} {here : Position}
    (notClosing : character ≠ ')') (written : write slot character here = .ok next) :
    next.surroundings = Surroundings.arguments.after character := by
  cases slot with
  | key name ended =>
      simp only [write] at written
      split at written
      · next colon =>
          subst colon
          split at written
          · cases written
          · cases written
            rfl
      · split at written
        · next accepted =>
            have notQuote : character ≠ '"' := by
              rintro rfl
              cases ended <;> exact absurd accepted (by decide)
            cases written
            simp [Surroundings.after, Slot.surroundings, notQuote, notClosing]
        · cases written
  | bare key token spaced =>
      simp only [write] at written
      split at written
      · next quote =>
          subst quote
          split at written <;> cases written
          rfl
      · next notQuote =>
          cases written
          simp [Surroundings.after, Slot.surroundings, notQuote, notClosing]
  | quoted key text quotation =>
      simp only [write] at written
      split at written
      · next quote =>
          cases written
          subst quote
          rfl
      · cases written

private theorem surroundings_stepOutside {list : ArgumentList} {character : Char}
    {here : Position} {progress : Progress ArgumentList Arguments}
    (outside : list.slot.surroundings = .arguments)
    (stepped : list.stepOutside character here = .ok progress) :
    surroundingsAfter progress = Surroundings.arguments.after character := by
  simp only [stepOutside] at stepped
  split at stepped
  · next closing =>
      obtain ⟨arguments, _, closed⟩ := bind_eq_ok_iff.mp stepped
      cases closed
      subst closing
      rfl
  · next notClosing =>
      split at stepped
      · next comma =>
          obtain ⟨arguments, _, waiting⟩ := bind_eq_ok_iff.mp stepped
          cases waiting
          subst comma
          rfl
      · split at stepped
        · next blank =>
            have notQuote : character ≠ '"' := Text.ne_of_accepts blank (by decide)
            cases stepped
            simp only [surroundingsAfter, surroundings_blank outside, Surroundings.after,
              if_neg notQuote, if_neg notClosing]
        · obtain ⟨slot, written, waiting⟩ := bind_eq_ok_iff.mp stepped
          cases waiting
          exact surroundings_write notClosing written

/-- An argument list accepts no line feed, and what it accepts moves its surroundings as a block
sees them. -/
theorem surroundings_step {list : ArgumentList} {character : Char} {here : Position}
    {progress : Progress ArgumentList Arguments}
    (stepped : list.step character here = .ok progress) :
    character ≠ '\n' ∧ surroundingsAfter progress = list.slot.surroundings.after character := by
  simp only [step] at stepped
  split at stepped
  · cases stepped
  · next notNewline =>
      refine ⟨notNewline, ?_⟩
      split at stepped
      · next key text inside =>
          cases stepped
          by_cases backslash : character = '\\'
          · simp [inside, surroundingsAfter, Slot.surroundings, Surroundings.after, backslash]
          · by_cases quote : character = '"' <;>
              simp [inside, surroundingsAfter, Slot.surroundings, Surroundings.after, backslash,
                quote]
      · next key text escaped =>
          cases stepped
          rw [escaped]
          rfl
      · next notInside notEscaped =>
          have outside : list.slot.surroundings = .arguments := by
            cases slot : list.slot with
            | key => rfl
            | bare => rfl
            | quoted key text quotation =>
                cases quotation with
                | outside => rfl
                | inside => exact absurd slot (notInside key text)
                | escaped => exact absurd slot (notEscaped key text)
          rw [outside]
          exact surroundings_stepOutside outside stepped

end ArgumentList

namespace Block

def extend (block : Block) (character : Char) : Block :=
  { block with
    text := block.text.push character
    openBraces := block.bracesAfter character
    surroundings := block.surroundings.after character }

theorem eq_extend_of_step {block next : Block} {character : Char} {here : Position}
    (stepped : block.step character here = .ok (.waiting next)) :
    next = block.extend character := by
  simp only [step] at stepped
  split at stepped
  · cases stepped
  split at stepped
  · cases stepped
  · cases stepped
    rfl

theorem eq_text_of_step {block : Block} {text : String} {character : Char} {here : Position}
    (stepped : block.step character here = .ok (.closed text)) : text = block.text := by
  simp only [step] at stepped
  split at stepped
  · cases stepped
  split at stepped
  · cases stepped
    rfl
  · cases stepped

theorem toList_text_extend (block : Block) (character : Char) :
    (block.extend character).text.toList = block.text.toList ++ [character] :=
  String.toList_push _

/-- Braces count only outside comments and argument lists. -/
theorem bracesAfter_of_ne_plain {block : Block} (notPlain : block.surroundings ≠ .plain)
    (character : Char) : block.bracesAfter character = block.openBraces :=
  if_neg notPlain

end Block

namespace OnePass

def Place.surroundings : Place → Surroundings
  | .between _ => .plain
  | .comment _ => .comment
  | .arguments _ _ list => list.slot.surroundings

theorem Place.surroundings_eq_plain_iff {place : Place} :
    place.surroundings = .plain ↔ ∃ pending, place = .between pending := by
  cases place with
  | between pending => exact ⟨fun _ => ⟨pending, rfl⟩, fun _ => rfl⟩
  | comment pending => exact ⟨nofun, nofun⟩
  | arguments name start list =>
      exact ⟨fun plain => absurd plain list.slot.surroundings_ne_plain, nofun⟩

/-- A block that was opened around a reader and has seen what the reader has read. -/
structure Watches (block : Block) (reader : Reader) : Prop where
  surroundings : block.surroundings = reader.place.surroundings
  openBraces : block.openBraces = reader.frames.length + 1

namespace Reader

theorem seen_openBlock {limit : DepthLimit} {outermost : Nat} {frames : List Frame}
    {selections : List Selection} {name : String} {arguments : Arguments} {next : Reader}
    (opened : openBlock limit outermost frames selections name arguments = some next) :
    next.place.surroundings = .plain ∧ next.frames.length = frames.length + 1 := by
  simp only [openBlock] at opened
  split at opened
  · cases opened
  · cases opened
    exact ⟨rfl, rfl⟩

theorem seen_closeBrace {frames : List Frame} {selections : List Selection} {pending : Pending}
    {next : Reader} (closed : closeBrace frames selections pending = some next) :
    next.place.surroundings = .plain ∧ frames.length = next.frames.length + 1 := by
  obtain ⟨complete, _, closed⟩ := Option.bind_eq_some_iff.mp closed
  cases frames with
  | nil => cases closed
  | cons frame outer =>
      cases frame <;>
        · cases closed
          exact ⟨rfl, rfl⟩

theorem seen_ordinary {block : Block} {character : Char} (plain : block.surroundings = .plain)
    (notComment : character ≠ '#') (notParenthesis : character ≠ '(')
    (notOpening : character ≠ '{') (notClosing : character ≠ '}') :
    Surroundings.plain.after character = .plain ∧
      block.bracesAfter character = block.openBraces := by
  constructor
  · rw [Surroundings.after, if_neg notComment, if_neg notParenthesis]
  · rw [Block.bracesAfter, if_pos plain, if_neg notOpening, if_neg notClosing]

theorem seen_writeName {frames : List Frame} {selections : List Selection} {character : Char}
    {here : Position} {pending : Pending} {next : Reader}
    (written : writeName frames selections character here pending = some next) :
    next.place.surroundings = .plain ∧ next.frames = frames := by
  simp only [writeName] at written
  split at written
  · cases written
    exact ⟨rfl, rfl⟩
  · obtain ⟨complete, _, equal⟩ := Option.bind_eq_some_iff.mp written
    cases equal
    exact ⟨rfl, rfl⟩

theorem seen_stepBetween {limit : DepthLimit} {outermost : Nat} {frames : List Frame}
    {selections : List Selection} {pending : Pending} {character : Char} {here : Position}
    {next : Reader} {block : Block} (plain : block.surroundings = .plain)
    (openBraces : block.openBraces = frames.length + 1)
    (stepped : stepBetween limit outermost frames selections pending character here = some next) :
    Surroundings.plain.after character = next.place.surroundings ∧
      block.bracesAfter character = next.frames.length + 1 := by
  simp only [stepBetween] at stepped
  split at stepped
  · next comment =>
      cases stepped
      subst comment
      exact ⟨rfl, (if_pos plain).trans openBraces⟩
  next notComment =>
  split at stepped
  · next comma =>
      obtain ⟨complete, _, equal⟩ := Option.bind_eq_some_iff.mp stepped
      cases equal
      subst comma
      exact ⟨rfl, (if_pos plain).trans openBraces⟩
  split at stepped
  · next blank =>
      obtain ⟨stays, braces⟩ := seen_ordinary plain notComment (Text.ne_of_accepts blank (by decide))
        (Text.ne_of_accepts blank (by decide)) (Text.ne_of_accepts blank (by decide))
      cases stepped
      exact ⟨stays, braces.trans openBraces⟩
  split at stepped
  · next parenthesis =>
      subst parenthesis
      cases pending with
      | named name start ended =>
          cases stepped
          exact ⟨rfl, (if_pos plain).trans openBraces⟩
      | nothing => cases stepped
      | called => cases stepped
  next notParenthesis =>
  split at stepped
  · next opening =>
      subst opening
      have more : block.bracesAfter '{' = frames.length + 1 + 1 := by
        rw [← openBraces]
        exact if_pos plain
      cases pending with
      | nothing =>
          cases stepped
          exact ⟨rfl, more⟩
      | named =>
          obtain ⟨inside, deeper⟩ := seen_openBlock stepped
          exact ⟨inside.symm, by rw [more, deeper]⟩
      | called =>
          obtain ⟨inside, deeper⟩ := seen_openBlock stepped
          exact ⟨inside.symm, by rw [more, deeper]⟩
  next notOpening =>
  split at stepped
  · next closing =>
      subst closing
      have fewer : block.bracesAfter '}' = frames.length := by
        rw [Block.bracesAfter, if_pos plain, openBraces]
        rfl
      obtain ⟨inside, higher⟩ := seen_closeBrace stepped
      exact ⟨inside.symm, by rw [fewer, higher]⟩
  next notClosing =>
  split at stepped
  · obtain ⟨stays, braces⟩ :=
      seen_ordinary plain notComment notParenthesis notOpening notClosing
    obtain ⟨inside, same⟩ := seen_writeName stepped
    exact ⟨stays.trans inside.symm, by rw [braces, openBraces, same]⟩
  · cases stepped

/-- What a block sees of a step that the reader inside it accepts. -/
theorem seen_step {limit : DepthLimit} {outermost : Nat} {reader next : Reader} {block : Block}
    {character : Char} {here : Position} (watches : Watches block reader)
    (stepped : reader.step limit outermost character here = some next) :
    ¬ (character = '\n' ∧ block.surroundings.inArguments = true) ∧
      block.surroundings.after character = next.place.surroundings ∧
      block.bracesAfter character = next.frames.length + 1 := by
  obtain ⟨frames, selections, place⟩ := reader
  obtain ⟨surroundings, openBraces⟩ := watches
  cases place with
  | between pending =>
      have plain : block.surroundings = .plain := surroundings
      refine ⟨?_, ?_⟩
      · rintro ⟨_, inArguments⟩
        rw [plain] at inArguments
        cases inArguments
      · rw [plain]
        exact seen_stepBetween plain openBraces stepped
  | comment pending =>
      have commented : block.surroundings = .comment := surroundings
      have braces : block.bracesAfter character = block.openBraces :=
        Block.bracesAfter_of_ne_plain (by rw [commented]; nofun) character
      simp only [step] at stepped
      refine ⟨?_, ?_⟩
      · rintro ⟨_, inArguments⟩
        rw [commented] at inArguments
        cases inArguments
      · rw [commented, braces]
        split at stepped
        · next newline =>
            cases stepped
            subst newline
            exact ⟨rfl, openBraces⟩
        · next inside =>
            cases stepped
            exact ⟨if_neg inside, openBraces⟩
  | arguments name start list =>
      have listed : block.surroundings = list.slot.surroundings := surroundings
      have notPlain : block.surroundings ≠ .plain := by
        rw [listed]
        exact list.slot.surroundings_ne_plain
      simp only [step] at stepped
      rw [listed, Block.bracesAfter_of_ne_plain notPlain]
      split at stepped
      · cases stepped
      · next list accepted =>
          cases stepped
          obtain ⟨notNewline, after⟩ := ArgumentList.surroundings_step accepted
          exact ⟨fun newline => notNewline newline.1, after.symm, openBraces⟩
      · next arguments accepted =>
          cases stepped
          obtain ⟨notNewline, after⟩ := ArgumentList.surroundings_step accepted
          exact ⟨fun newline => notNewline newline.1, after.symm, openBraces⟩

/-- As long as the reader inside a block accepts characters, the block waits for more. -/
theorem step_watches {limit : DepthLimit} {outermost : Nat} {reader next : Reader} {block : Block}
    {character : Char} {here : Position} (watches : Watches block reader)
    (stepped : reader.step limit outermost character here = some next) :
    block.step character here = .ok (.waiting (block.extend character)) ∧
      Watches (block.extend character) next := by
  obtain ⟨accepted, after, braces⟩ := seen_step watches stepped
  refine ⟨?_, after, braces⟩
  have stillOpen : block.bracesAfter character ≠ 0 := by omega
  rw [Block.step, if_neg accepted, if_neg stillOpen]
  rfl

/-- A block closes exactly at the brace that its reader has not opened. -/
theorem step_closed_iff {reader : Reader} {block : Block} {character : Char} {text : String}
    (here : Position) (watches : Watches block reader) :
    block.step character here = .ok (.closed text) ↔
      reader.Closes character ∧ block.text = text := by
  obtain ⟨surroundings, openBraces⟩ := watches
  constructor
  · intro closed
    simp only [Block.step] at closed
    split at closed
    · cases closed
    split at closed
    · next noneOpen =>
        cases closed
        refine ⟨?_, rfl⟩
        simp only [Block.bracesAfter] at noneOpen
        split at noneOpen
        · next plain =>
            split at noneOpen
            · omega
            split at noneOpen
            · next closing =>
                exact ⟨List.eq_nil_of_length_eq_zero (by omega), closing,
                  Place.surroundings_eq_plain_iff.mp (surroundings ▸ plain)⟩
            · omega
        · omega
    · cases closed
  · rintro ⟨⟨frames, rfl, between⟩, rfl⟩
    have plain := Place.surroundings_eq_plain_iff.mpr between
    have noneOpen : block.bracesAfter '}' = 0 := by
      simp [Block.bracesAfter, surroundings, plain, openBraces, frames]
    rw [Block.step, if_neg (by simp), if_pos noneOpen]

end Reader

end OnePass

end FieldQuery.Query
