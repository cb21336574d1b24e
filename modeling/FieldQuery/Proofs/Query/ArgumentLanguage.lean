import FieldQuery.Proofs.Query.SlotContinuation

/-!
# The language of argument lists

Texts of the grammar are read piece by piece: blanks, keys, numerals and quoted pieces each take a
slot to the next one. With the other direction, an argument list is closed behind a text exactly
when the text belongs to the grammar.
-/

set_option autoImplicit false

namespace FieldQuery.Query

/-- A text takes an argument list from one slot to another, wherever it stands. -/
def Slot.Reads (slot : Slot) (text : List Char) (next : Slot) : Prop :=
  ∀ openedAt arguments here,
    ArgumentList.feed ⟨openedAt, arguments, slot⟩ here text = some ⟨openedAt, arguments, next⟩

namespace Slot

theorem reads_nil (slot : Slot) : slot.Reads [] slot := fun _ _ _ => rfl

theorem Reads.append {slot middle next : Slot} {front back : List Char}
    (first : slot.Reads front middle) (second : middle.Reads back next) :
    slot.Reads (front ++ back) next := by
  intro openedAt arguments here
  rw [ArgumentList.feed_append, first, Option.bind_some, second]

theorem reads_of_step {slot next : Slot} {character : Char}
    (stepped : ∀ openedAt arguments here,
      ArgumentList.step ⟨openedAt, arguments, slot⟩ character here =
        .ok (.waiting ⟨openedAt, arguments, next⟩)) : slot.Reads [character] next := by
  intro openedAt arguments here
  rw [ArgumentList.feed, stepped]
  rfl

theorem reads_blank {slot : Slot} {character : Char} (outside : slot.surroundings = .arguments)
    (blank : Text.isBlank character = true) (notNewline : character ≠ '\n') :
    slot.Reads [character] (ArgumentList.blank slot) := by
  apply reads_of_step
  intro openedAt arguments here
  rw [ArgumentList.step_eq_stepOutside here notNewline outside, ArgumentList.stepOutside,
    if_neg (Text.ne_of_accepts blank (by decide)), if_neg (Text.ne_of_accepts blank (by decide)),
    if_pos blank]

/-- Blanks change nothing where they have nothing to end. -/
theorem reads_blanks_of_fixed (slot : Slot) {text : List Char}
    (outside : slot.surroundings = .arguments) (fixed : ArgumentList.blank slot = slot)
    (allBlank : AllBlank text) (noNewline : '\n' ∉ text) : slot.Reads text slot := by
  induction text with
  | nil => exact reads_nil slot
  | cons character rest ih =>
      obtain ⟨blank, others⟩ := List.forall_mem_cons.mp allBlank
      have notNewline : character ≠ '\n' := (List.ne_of_not_mem_cons noNewline).symm
      have first := reads_blank outside blank notNewline
      rw [fixed] at first
      exact first.append (ih others (List.not_mem_of_not_mem_cons noNewline))

theorem reads_blanks (slot : Slot) {text : List Char} (outside : slot.surroundings = .arguments)
    (allBlank : AllBlank text) (noNewline : '\n' ∉ text) :
    ∃ next, slot.Reads text next ∧ (next = slot ∨ next = ArgumentList.blank slot) := by
  cases text with
  | nil => exact ⟨slot, reads_nil slot, .inl rfl⟩
  | cons character rest =>
      obtain ⟨blank, others⟩ := List.forall_mem_cons.mp allBlank
      have notNewline : character ≠ '\n' := (List.ne_of_not_mem_cons noNewline).symm
      have still : (ArgumentList.blank slot).surroundings = .arguments := by
        cases slot <;> exact outside
      have fixed : ArgumentList.blank (ArgumentList.blank slot) = ArgumentList.blank slot := by
        cases slot <;> rfl
      have further := reads_blanks_of_fixed _ still fixed others
        (List.not_mem_of_not_mem_cons noNewline)
      exact ⟨_, (reads_blank outside blank notNewline).append further, .inr rfl⟩

theorem reads_key {key : String} (isKey : IsKey key) :
    Reads .empty key.toList (.key key false) := by
  intro openedAt arguments here
  have fed := ArgumentList.feed_text openedAt arguments (fun name => .key name false)
    (fun character => [character]) key
    (fun character member name there => ArgumentList.feed_cons_of_step
      (ArgumentList.step_of_isKeyCharacter openedAt arguments (isKey.2 character member) name there)
      []) here
  rw [List.flatMap_singleton'] at fed
  exact fed

theorem reads_colon {key : String} (nonempty : key ≠ "") (ended : Bool) :
    Reads (.key key ended) [':'] (.bare key "" false) := by
  apply reads_of_step
  intro openedAt arguments here
  exact ArgumentList.step_colon openedAt arguments nonempty ended here

theorem reads_token (key : String) {token : List Char}
    (isToken : ∀ character ∈ token, Text.isNumeral character = true) :
    Reads (.bare key "" false) token (.bare key (String.ofList token) false) := by
  intro openedAt arguments here
  have fed := ArgumentList.feed_text openedAt arguments (fun token => .bare key token false)
    (fun character => [character]) (String.ofList token) ?_ here
  · rw [List.flatMap_singleton', String.toList_ofList] at fed
    exact fed
  · intro character member written there
    rw [String.toList_ofList] at member
    apply ArgumentList.feed_cons_of_step
    exact ArgumentList.step_of_isNumeral openedAt arguments (isToken character member) key written
      there

theorem reads_quotedText (key : String) {raw meaning : List Char}
    (quoted : QuotedText raw meaning) (noNewline : '\n' ∉ raw) (text : String) :
    Reads (.quoted key text .inside) raw
      (.quoted key (text ++ String.ofList meaning) .inside) := by
  induction quoted generalizing text with
  | nil =>
      rw [String.ofList_nil, String.append_empty]
      exact reads_nil _
  | @plain character raw meaning notQuote notBackslash _ ih =>
      have notNewline : character ≠ '\n' := (List.ne_of_not_mem_cons noNewline).symm
      have first : Reads (.quoted key text .inside) [character]
          (.quoted key (text.push character) .inside) := by
        apply reads_of_step
        intro openedAt arguments here
        rw [ArgumentList.step, if_neg notNewline]
        simp only [if_neg notBackslash, if_neg notQuote]
      rw [← push_append_ofList]
      exact first.append (ih (List.not_mem_of_not_mem_cons noNewline) (text.push character))
  | @escape character raw meaning _ ih =>
      have behind := List.not_mem_of_not_mem_cons noNewline
      have notNewline : character ≠ '\n' := (List.ne_of_not_mem_cons behind).symm
      have first : Reads (.quoted key text .inside) ['\\'] (.quoted key text .escaped) :=
        reads_of_step fun _ _ _ => rfl
      have second : Reads (.quoted key text .escaped) [character]
          (.quoted key (text.push (ArgumentList.unescape character)) .inside) := by
        apply reads_of_step
        intro openedAt arguments here
        rw [ArgumentList.step, if_neg notNewline]
      rw [← push_append_ofList]
      exact first.append (second.append (ih (List.not_mem_of_not_mem_cons behind) _))

theorem reads_quotedPieces (key : String) {raw meaning : List Char}
    (pieces : QuotedPieces raw meaning) (noNewline : '\n' ∉ raw) {slot : Slot} {text : String}
    (opens : slot.Reads ['"'] (.quoted key text .inside)) :
    slot.Reads raw (.quoted key (text ++ String.ofList meaning) .outside) := by
  have closes (text : String) :
      Reads (.quoted key text .inside) ['"'] (.quoted key text .outside) :=
    reads_of_step fun _ _ _ => rfl
  have reopens (text : String) :
      Reads (.quoted key text .outside) ['"'] (.quoted key text .inside) :=
    reads_of_step fun _ _ _ => rfl
  induction pieces generalizing slot text with
  | @last raw meaning quoted =>
      have inside : '\n' ∉ raw := by
        intro member
        simp [member] at noNewline
      exact opens.append ((reads_quotedText key quoted inside text).append (closes _))
  | @more raw meaning gap rest further quoted blank _ ih =>
      obtain ⟨noneInside, noneInGap, noneBehind⟩ : '\n' ∉ raw ∧ '\n' ∉ gap ∧ '\n' ∉ rest := by
        simpa using noNewline
      have first := reads_quotedText key quoted noneInside text
      have others := ih noneBehind (reopens (text ++ String.ofList meaning))
      have across := reads_blanks_of_fixed (.quoted key (text ++ String.ofList meaning) .outside)
        rfl rfl blank noneInGap
      rw [String.ofList_append, ← String.append_assoc]
      exact opens.append (first.append ((closes _).append (across.append others)))

end Slot

theorem SpacedValue.reads (key : String) {text : List Char} {value : ArgumentValue}
    (spaced : SpacedValue text value) (noNewline : '\n' ∉ text) :
    ∃ next, Slot.Reads (.bare key "" false) text next ∧ next.surroundings = .arguments ∧
      next.Holds (some (key, value)) := by
  obtain ⟨before, token, behind, rfl, blankBefore, spelt, blankBehind⟩ := spaced
  obtain ⟨noneBefore, noneInToken, noneBehind⟩ : '\n' ∉ before ∧ '\n' ∉ token ∧ '\n' ∉ behind := by
    simpa using noNewline
  have toToken := Slot.reads_blanks_of_fixed (.bare key "" false) rfl rfl blankBefore noneBefore
  cases spelt with
  | @integer number numeral fits =>
      have reads := Slot.reads_token key fun character => numeral.isNumeral
      have spelt : Text.Numeral (String.ofList token).toList number := by
        rw [String.toList_ofList]
        exact numeral
      obtain ⟨next, further, rfl | rfl⟩ :=
        Slot.reads_blanks (.bare key (String.ofList token) false) rfl blankBehind noneBehind
      · exact ⟨_, toToken.append (reads.append further), rfl, .integer spelt fits⟩
      · exact ⟨_, toToken.append (reads.append further), rfl, .integer spelt fits⟩
  | @text meaning pieces =>
      have opens : Slot.Reads (.bare key "" false) ['"'] (.quoted key "" .inside) := by
        apply Slot.reads_of_step
        intro openedAt arguments here
        exact ArgumentList.step_opening_quote openedAt arguments key here
      have reads := Slot.reads_quotedPieces key pieces noneInToken opens
      rw [String.empty_append] at reads
      have further := Slot.reads_blanks_of_fixed (.quoted key (String.ofList meaning) .outside)
        rfl rfl blankBehind noneBehind
      exact ⟨_, toToken.append (reads.append further), rfl, .text⟩

theorem SlotText.reads {text : List Char} {content : Option (String × ArgumentValue)}
    (slot : SlotText text content) (noNewline : '\n' ∉ text) :
    ∃ next, Slot.Reads .empty text next ∧ next.surroundings = .arguments ∧ next.Holds content := by
  cases slot with
  | blank allBlank =>
      exact ⟨.empty, Slot.reads_blanks_of_fixed .empty rfl rfl allBlank noNewline, rfl, .nothing⟩
  | @pair before gap rest key value blankBefore isKey blankGap spaced =>
      obtain ⟨noneBefore, _, noneInGap, noneBehind⟩ :
          '\n' ∉ before ∧ '\n' ∉ key.toList ∧ '\n' ∉ gap ∧ '\n' ∉ rest := by
        simpa using noNewline
      have toKey := Slot.reads_blanks_of_fixed .empty rfl rfl blankBefore noneBefore
      obtain ⟨ended, toColon⟩ : ∃ ended, Slot.Reads (.key key false) gap (.key key ended) := by
        obtain ⟨next, reads, rfl | rfl⟩ :=
          Slot.reads_blanks (.key key false) rfl blankGap noneInGap
        · exact ⟨_, reads⟩
        · exact ⟨_, reads⟩
      have colon := Slot.reads_colon isKey.1 ended
      obtain ⟨next, reads, complete⟩ := spaced.reads key noneBehind
      have whole := toKey.append ((Slot.reads_key isKey).append
        (toColon.append (colon.append reads)))
      exact ⟨next, whole, complete⟩

namespace ArgumentList

theorem closesBehind_of_grammar (openedAt : Position) {before after : Arguments}
    {piece : List Char} {texts : List (List Char)} {content : Option (String × ArgumentValue)}
    {contents : List (Option (String × ArgumentValue))} (slot : SlotText piece content)
    (slots : List.Forall₂ SlotText texts contents)
    (noNewline : '\n' ∉ [','].intercalate (piece :: texts))
    (adds : Adds before (content :: contents) after) (here : Position) :
    ClosesBehind ⟨openedAt, before, .empty⟩ here ([','].intercalate (piece :: texts)) after := by
  obtain ⟨between, first, rest⟩ := adds_cons_iff.mp adds
  induction slots generalizing before between piece content here with
  | nil =>
      cases rest
      rw [List.intercalate_singleton] at noNewline ⊢
      obtain ⟨next, reads, outside, holds⟩ := slot.reads noNewline
      exact ⟨_, reads openedAt before here, step_closed_iff.mpr ⟨outside, content, holds, first⟩⟩
  | @cons other inner texts contents nextSlot _ ih =>
      rw [List.intercalate_cons_cons] at noNewline ⊢
      obtain ⟨noneFirst, noneLater⟩ : '\n' ∉ piece ∧ '\n' ∉ [','].intercalate (other :: texts) := by
        simpa using noNewline
      obtain ⟨next, reads, outside, holds⟩ := slot.reads noneFirst
      have completes : Completes next before between :=
        ⟨outside, fun there => (commit_eq_ok_iff outside).mpr ⟨content, holds, first⟩⟩
      obtain ⟨further, second, others⟩ := adds_cons_iff.mp rest
      obtain ⟨last, fed, closed⟩ :=
        ih nextSlot noneLater rest ((here.after piece).advance ',') further second others
      refine ⟨last, ?_, ?_⟩
      · rw [List.append_assoc, feed_append, reads openedAt before here, Option.bind_some,
          List.singleton_append, feed_cons_of_step (step_comma openedAt completes _)]
        exact fed
      · rw [List.append_assoc, Position.after_append]
        exact closed

/-- An argument list is closed behind a text exactly when the text has no line feed and each of its
pieces between the commas outside quotation marks is blank or spells a pair, under different keys.
The arguments are then just these pairs. -/
theorem closesBehind_iff_grammar (openedAt here : Position) (text : List Char)
    (arguments : Arguments) :
    ClosesBehind (.opened openedAt) here text arguments ↔
      '\n' ∉ text ∧ ∃ contents, List.Forall₂ SlotText (pieces .outside text) contents ∧
        (keysOf contents).Nodup ∧
        ∀ key value, arguments.get? key = some value ↔ some (key, value) ∈ contents := by
  constructor
  · intro closes
    obtain ⟨noNewline, piece, texts, content, contents, rfl, continues, slots, adds⟩ :=
      grammar_of_closesBehind closes
    obtain ⟨distinct, _, held⟩ := adds_iff.mp adds
    have each : List.Forall₂ SlotText (piece :: texts) (content :: contents) :=
      .cons (Slot.continues_empty_iff.mp continues) slots
    refine ⟨noNewline, content :: contents, ?_, distinct, ?_⟩
    · rw [pieces_intercalate (uncut_of_slotTexts each)]
      exact each
    · intro key value
      simpa using held key value
  · intro grammar
    obtain ⟨noNewline, contents, slots, distinct, held⟩ := grammar
    have whole := intercalate_pieces .outside text
    have nonempty := pieces_ne_nil .outside text
    generalize pieces .outside text = texts at slots whole nonempty
    cases slots with
    | nil => exact absurd rfl nonempty
    | @cons piece content texts contents slot slots =>
        subst whole
        apply closesBehind_of_grammar openedAt slot slots noNewline
        exact adds_iff.mpr ⟨distinct, fun _ _ => rfl, fun key value => by simpa using held key value⟩

end ArgumentList

end FieldQuery.Query
