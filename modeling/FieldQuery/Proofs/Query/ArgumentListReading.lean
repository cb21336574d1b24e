import FieldQuery.Proofs.Entries
import FieldQuery.Proofs.Query.BlockAgreement
import FieldQuery.Proofs.Query.Canonical
import FieldQuery.Proofs.Text.DecimalReading

/-!
# Reading canonical argument lists

A run of characters takes an argument list from one state to the next. The canonical text of a
pair takes it from an empty slot to a slot that a comma or the closing parenthesis completes with
just that pair, so canonical argument lists read as what they were written from.
-/

set_option autoImplicit false

namespace FieldQuery.Query

theorem isBlank_eq_false_of_isKeyCharacter {character : Char}
    (accepted : isKeyCharacter character = true) : Text.isBlank character = false := by
  simp only [isKeyCharacter, Bool.or_eq_true, beq_iff_eq] at accepted
  rcases accepted with (alphanumeric | rfl) | rfl
  · exact Text.isBlank_eq_false_of_isAlphanumeric alphanumeric
  · decide
  · decide

theorem isBlank_eq_false_of_isNumeral {character : Char}
    (accepted : Text.isNumeral character = true) : Text.isBlank character = false := by
  simp only [Text.isNumeral, Bool.or_eq_true, beq_iff_eq] at accepted
  rcases accepted with (digit | rfl) | rfl
  · exact Text.isBlank_eq_false_of_isAlphanumeric (Text.isAlphanumeric_of_isDigit digit)
  · decide
  · decide

theorem push_append_ofList (front : String) (character : Char) (back : List Char) :
    front.push character ++ String.ofList back = front ++ String.ofList (character :: back) := by
  rw [← String.toList_inj]
  simp

namespace ArgumentList

def feed (list : ArgumentList) (here : Position) : List Char → Option ArgumentList
  | [] => some list
  | character :: rest =>
      match list.step character here with
      | .ok (.waiting next) => next.feed (here.advance character) rest
      | _ => none

theorem feed_append (list : ArgumentList) (here : Position) (front back : List Char) :
    list.feed here (front ++ back) =
      (list.feed here front).bind fun next => next.feed (here.after front) back := by
  induction front generalizing list here with
  | nil => rfl
  | cons character front ih =>
      simp only [List.cons_append, feed]
      split
      · next after stepped => exact ih after (here.advance character)
      · rfl

theorem feed_cons_of_step {list next : ArgumentList} {character : Char} {here : Position}
    (stepped : list.step character here = .ok (.waiting next)) (rest : List Char) :
    list.feed here (character :: rest) = next.feed (here.advance character) rest := by
  rw [feed, stepped]

/-- Outside quotation marks only a line feed is treated specially. -/
theorem step_eq_stepOutside {list : ArgumentList} {character : Char} (here : Position)
    (notNewline : character ≠ '\n') (outside : list.slot.surroundings = .arguments) :
    list.step character here = list.stepOutside character here := by
  rw [step, if_neg notNewline]
  split
  · next key text inside =>
      rw [inside] at outside
      cases outside
  · next key text escaped =>
      rw [escaped] at outside
      cases outside
  · rfl

variable (openedAt : Position) (arguments : Arguments)

theorem step_of_write {slot next : Slot} {character : Char} {here : Position}
    (outside : slot.surroundings = .arguments)
    (inert : character ≠ '\n' ∧ character ≠ ')' ∧ character ≠ ',' ∧
      Text.isBlank character = false)
    (written : write slot character here = .ok next) :
    step ⟨openedAt, arguments, slot⟩ character here =
      .ok (.waiting ⟨openedAt, arguments, next⟩) := by
  obtain ⟨notNewline, notClosing, notComma, notBlank⟩ := inert
  rw [step_eq_stepOutside here notNewline outside, stepOutside, if_neg notClosing,
    if_neg notComma, if_neg (by simp [notBlank])]
  simp only [written]
  rfl

theorem step_of_isKeyCharacter {character : Char} (accepted : isKeyCharacter character = true)
    (name : String) (here : Position) :
    step ⟨openedAt, arguments, .key name false⟩ character here =
      .ok (.waiting ⟨openedAt, arguments, .key (name.push character) false⟩) := by
  apply step_of_write openedAt arguments rfl
  · exact ⟨Text.ne_of_accepts accepted (by decide), Text.ne_of_accepts accepted (by decide),
      Text.ne_of_accepts accepted (by decide), isBlank_eq_false_of_isKeyCharacter accepted⟩
  · rw [write, if_neg (Text.ne_of_accepts accepted (by decide)), accepted]
    rfl

theorem step_colon {name : String} (nonempty : name ≠ "") (ended : Bool) (here : Position) :
    step ⟨openedAt, arguments, .key name ended⟩ ':' here =
      .ok (.waiting ⟨openedAt, arguments, .bare name "" false⟩) := by
  apply step_of_write openedAt arguments rfl
  · decide
  · rw [write, if_pos rfl, if_neg (by simpa using nonempty)]

theorem step_of_isNumeral {character : Char} (accepted : Text.isNumeral character = true)
    (key token : String) (here : Position) :
    step ⟨openedAt, arguments, .bare key token false⟩ character here =
      .ok (.waiting ⟨openedAt, arguments, .bare key (token.push character) false⟩) := by
  apply step_of_write openedAt arguments rfl
  · exact ⟨Text.ne_of_accepts accepted (by decide), Text.ne_of_accepts accepted (by decide),
      Text.ne_of_accepts accepted (by decide), isBlank_eq_false_of_isNumeral accepted⟩
  · rw [write, if_neg (Text.ne_of_accepts accepted (by decide))]
    rfl

theorem step_opening_quote (key : String) (here : Position) :
    step ⟨openedAt, arguments, .bare key "" false⟩ '"' here =
      .ok (.waiting ⟨openedAt, arguments, .quoted key "" .inside⟩) := by
  apply step_of_write openedAt arguments rfl
  · decide
  · rfl

/-- The canonical spelling of a character inside quotation marks stands for that character. -/
theorem feed_canonicalCharacter (key text : String) (character : Char) (here : Position) :
    feed ⟨openedAt, arguments, .quoted key text .inside⟩ here (canonicalCharacter character) =
      some ⟨openedAt, arguments, .quoted key (text.push character) .inside⟩ := by
  rw [canonicalCharacter]
  split
  · next backslash =>
      subst backslash
      rfl
  split
  · next quote =>
      subst quote
      rfl
  split
  · next newline =>
      subst newline
      rfl
  · next notBackslash notQuote notNewline =>
      apply feed_cons_of_step
      rw [step, if_neg notNewline]
      simp only [if_neg notBackslash, if_neg notQuote]

/-- A run of pieces, one for each character of a text, each of which pushes its character. -/
theorem feed_pushes (slot : String → Slot) (piece : Char → List Char) (characters : List Char)
    (pushes : ∀ character ∈ characters, ∀ text here,
      feed ⟨openedAt, arguments, slot text⟩ here (piece character) =
        some ⟨openedAt, arguments, slot (text.push character)⟩)
    (text : String) (here : Position) :
    feed ⟨openedAt, arguments, slot text⟩ here (characters.flatMap piece) =
      some ⟨openedAt, arguments, slot (text ++ String.ofList characters)⟩ := by
  induction characters generalizing text here with
  | nil => simp [feed]
  | cons character rest ih =>
      rw [List.flatMap_cons, feed_append, pushes character List.mem_cons_self, Option.bind_some,
        ih fun other member => pushes other (List.mem_cons_of_mem _ member),
        push_append_ofList]

theorem feed_text (slot : String → Slot) (piece : Char → List Char) (text : String)
    (pushes : ∀ character ∈ text.toList, ∀ written here,
      feed ⟨openedAt, arguments, slot written⟩ here (piece character) =
        some ⟨openedAt, arguments, slot (written.push character)⟩) (here : Position) :
    feed ⟨openedAt, arguments, slot ""⟩ here (text.toList.flatMap piece) =
      some ⟨openedAt, arguments, slot text⟩ := by
  rw [feed_pushes openedAt arguments slot piece text.toList pushes, String.empty_append,
    String.ofList_toList]

/-- A slot that a comma or the closing parenthesis completes, wherever it stands. -/
structure Completes (slot : Slot) (before after : Arguments) : Prop where
  outside : slot.surroundings = .arguments
  commits : ∀ here, commit before slot here = .ok after

theorem step_comma {before after : Arguments} {slot : Slot}
    (completes : Completes slot before after) (here : Position) :
    step ⟨openedAt, before, slot⟩ ',' here = .ok (.waiting ⟨openedAt, after, .empty⟩) := by
  rw [step_eq_stepOutside here (by decide) completes.outside, stepOutside, if_neg (by decide),
    if_pos rfl]
  simp only [completes.commits here]
  rfl

theorem step_closing {before after : Arguments} {slot : Slot}
    (completes : Completes slot before after) (here : Position) :
    step ⟨openedAt, before, slot⟩ ')' here = .ok (.closed after) := by
  rw [step_eq_stepOutside here (by decide) completes.outside, stepOutside, if_pos rfl]
  simp only [completes.commits here]
  rfl

theorem feed_canonicalValue {key : String} (fresh : arguments.contains key = false)
    (value : ArgumentValue) (here : Position) :
    ∃ slot, feed ⟨openedAt, arguments, .bare key "" false⟩ here (canonicalValue value) =
        some ⟨openedAt, arguments, slot⟩ ∧
      Completes slot arguments (arguments.insert key value) := by
  have added (there : Position) :
      add arguments key value there = .ok (arguments.insert key value) := by
    rw [add, fresh]
    rfl
  cases value with
  | integer value =>
      have fed := feed_text openedAt arguments (fun token => .bare key token false)
        (fun character => [character]) (Text.decimal value.toInt)
        (fun character member token there => feed_cons_of_step
          (step_of_isNumeral openedAt arguments (Text.isNumeral_of_mem_decimal member) key token
            there) []) here
      rw [List.flatMap_singleton'] at fed
      refine ⟨_, fed, rfl, fun there => ?_⟩
      have nonempty : (Text.decimal value.toInt).isEmpty = false := by
        simpa using Text.decimal_ne_empty value.toInt
      simp only [commit, nonempty, Text.int64?_decimal, added]
      rfl
  | text text =>
      refine ⟨.quoted key text .outside, ?_, rfl, added⟩
      have fed := feed_text openedAt arguments (fun text => .quoted key text .inside)
        canonicalCharacter text
        (fun character _ text there =>
          feed_canonicalCharacter openedAt arguments key text character there)
        (here.advance '"')
      rw [canonicalValue, feed_cons_of_step (step_opening_quote openedAt arguments key here),
        feed_append, fed, Option.bind_some]
      exact feed_cons_of_step rfl []

theorem feed_canonicalPair {key : String} (isKey : IsKey key)
    (fresh : arguments.contains key = false) (value : ArgumentValue) (here : Position) :
    ∃ slot, feed ⟨openedAt, arguments, .empty⟩ here (canonicalPair (key, value)) =
        some ⟨openedAt, arguments, slot⟩ ∧
      Completes slot arguments (arguments.insert key value) := by
  obtain ⟨nonempty, accepted⟩ := isKey
  have fed := feed_text openedAt arguments (fun name => .key name false)
    (fun character => [character]) key
    (fun character member name there => feed_cons_of_step
      (step_of_isKeyCharacter openedAt arguments (accepted character member) name there) []) here
  rw [List.flatMap_singleton'] at fed
  obtain ⟨slot, valued, completes⟩ := feed_canonicalValue openedAt arguments fresh value
    ((here.after key.toList).advance ':')
  refine ⟨slot, ?_, completes⟩
  rw [canonicalPair, feed_append, Slot.empty, fed, Option.bind_some,
    feed_cons_of_step (step_colon openedAt arguments nonempty false _), valued]

/-- Canonical pairs in ascending order of their keys, read behind those that are complete. -/
theorem feed_canonicalPairs (pair : String × ArgumentValue)
    (pairs : List (String × ArgumentValue))
    (ascending : Entries.Ascending (arguments.entries ++ pair :: pairs))
    (areKeys : ∀ entry ∈ pair :: pairs, IsKey entry.1) (here : Position) :
    ∃ before slot after,
      feed ⟨openedAt, arguments, .empty⟩ here
          ([','].intercalate ((pair :: pairs).map canonicalPair)) =
        some ⟨openedAt, before, slot⟩ ∧
      Completes slot before after ∧ after.entries = arguments.entries ++ pair :: pairs := by
  induction pairs generalizing arguments pair here with
  | nil =>
      have above := Entries.Ascending.above ascending
      obtain ⟨slot, fed, completes⟩ := feed_canonicalPair openedAt arguments
        (areKeys pair List.mem_cons_self) (Dict.contains_eq_false_of_above above) pair.2 here
      exact ⟨arguments, slot, _, by simpa using fed, completes,
        Dict.entries_insert_of_above pair.2 above⟩
  | cons next pairs ih =>
      -- The key lies above all keys so far, so it is new and its pair goes to the end.
      have above := Entries.Ascending.above ascending
      obtain ⟨slot, fed, completes⟩ := feed_canonicalPair openedAt arguments
        (areKeys pair List.mem_cons_self) (Dict.contains_eq_false_of_above above) pair.2 here
      have grown := Dict.entries_insert_of_above pair.2 above
      have regrouped : (arguments.insert pair.1 pair.2).entries ++ next :: pairs =
          arguments.entries ++ pair :: next :: pairs := by
        rw [grown, List.append_assoc]
        rfl
      obtain ⟨before, last, after, remaining, completed, entries⟩ :=
        ih (arguments.insert pair.1 pair.2) next (regrouped ▸ ascending)
          (fun entry member => areKeys entry (List.mem_cons_of_mem _ member))
          ((here.after (canonicalPair pair)).advance ',')
      refine ⟨before, last, after, ?_, completed, entries.trans regrouped⟩
      rw [List.map_cons, List.map_cons, List.intercalate_cons_cons, List.append_assoc,
        feed_append, fed, Option.bind_some, List.singleton_append,
        feed_cons_of_step (step_comma openedAt completes _)]
      exact remaining

/-- A canonical argument list is read up to its closing parenthesis, which gives the arguments. -/
theorem feed_canonicalArguments {arguments : Arguments} (nonempty : arguments.entries ≠ [])
    (areKeys : HasKeys arguments) (here : Position) :
    ∃ list, feed (.opened openedAt) here
        ([','].intercalate (arguments.entries.map canonicalPair)) = some list ∧
      ∀ there, list.step ')' there = .ok (.closed arguments) := by
  obtain ⟨entries, ascending⟩ := arguments
  cases entries with
  | nil => exact absurd rfl nonempty
  | cons pair pairs =>
      obtain ⟨before, slot, after, fed, completes, entries⟩ :=
        feed_canonicalPairs openedAt .empty pair pairs ascending
          (fun entry member => areKeys entry.1 (List.mem_map_of_mem member)) here
      obtain rfl : after = ⟨pair :: pairs, ascending⟩ := Dict.eq_of_entries_eq entries
      exact ⟨_, fed, step_closing openedAt completes⟩

end ArgumentList

end FieldQuery.Query
