import FieldQuery.Proofs.Query.ArgumentListReading
import FieldQuery.Proofs.Query.NameRuns
import FieldQuery.Proofs.Query.PlacelessReading

/-!
# The fields that a text mentions

A text can be read flat, from left to right and without regard to nesting. Every maximal run of
name characters outside comments and argument lists mentions a field, and what stands behind the
run says whether the field has a block and with which arguments. When the text is a query, the
selections that are read, each in front of those of its block, are just the fields mentioned.
-/

set_option autoImplicit false

namespace FieldQuery.Query

/-- A field with the arguments of its block, if it has a block. -/
structure Mention where
  name : String
  block : Option Arguments
  deriving DecidableEq

namespace Selection

mutual

def mentions : Selection → List Mention
  | .leaf name => [⟨name, none⟩]
  | .branch name arguments selections => ⟨name, some arguments⟩ :: allMentions selections

def allMentions : List Selection → List Mention
  | [] => []
  | selection :: rest => selection.mentions ++ allMentions rest

end

theorem allMentions_append (front back : List Selection) :
    allMentions (front ++ back) = allMentions front ++ allMentions back := by
  induction front with
  | nil => rfl
  | cons selection front ih =>
      rw [List.cons_append, allMentions, allMentions, ih, List.append_assoc]

theorem allMentions_concat (selections : List Selection) (last : Selection) :
    allMentions (selections ++ [last]) = allMentions selections ++ last.mentions := by
  rw [allMentions_append, allMentions, allMentions, List.append_nil]

end Selection

/-- A text from its first character on that is neither a blank nor in a comment. -/
def significant (inComment : Bool) : List Char → List Char
  | [] => []
  | character :: rest =>
      if inComment then significant (character != '\n') rest
      else if character = '#' then significant true rest
      else if Text.isBlank character then significant false rest
      else character :: rest

def blockOf (arguments : Arguments) (inComment : Bool) (behind : List Char) : Option Arguments :=
  if (significant inComment behind).head? = some '{' then some arguments else none

def ArgumentList.block? (list : ArgumentList) : List Char → Option Arguments
  | [] => none
  | character :: rest =>
      match list.step character .start with
      | .ok (.waiting next) => next.block? rest
      | .ok (.closed arguments) => blockOf arguments false rest
      | .error _ => none

/-- The arguments of the block that follows behind a name, with blanks, comments and at most one
argument list between them. -/
def block? (inComment : Bool) (behind : List Char) : Option Arguments :=
  match significant inComment behind with
  | '(' :: list => ArgumentList.block? (.opened .start) list
  | _ => blockOf .empty inComment behind

def NameRun.mention (run : NameRun) : Mention :=
  ⟨String.ofList run.name, block? false run.behind⟩

/-! ## What stands behind a name -/

section

variable {character : Char} {inComment : Bool} {rest : List Char}

theorem significant_blank (blank : Text.isBlank character = true) :
    significant false (character :: rest) = significant false rest := by
  rw [significant, if_neg (by decide), if_neg (Text.ne_of_accepts blank (by decide)), if_pos blank]

theorem significant_of_inert (notBlank : Text.isBlank character = false)
    (notComment : character ≠ '#') :
    significant false (character :: rest) = character :: rest := by
  rw [significant, if_neg (by decide), if_neg notComment, if_neg (by simp [notBlank])]

/-- A character that neither is skipped nor opens anything shows that there is no block. -/
theorem block?_eq_none (notBlank : Text.isBlank character = false) (notComment : character ≠ '#')
    (notParenthesis : character ≠ '(') (notBrace : character ≠ '{') :
    block? false (character :: rest) = none := by
  rw [block?, blockOf, significant_of_inert notBlank notComment]
  split
  · next list opened =>
      cases opened
      exact absurd rfl notParenthesis
  · rw [List.head?_cons, if_neg (by simpa using notBrace)]

theorem block?_congr {behind : List Char} {within : Bool}
    (same : significant inComment rest = significant within behind) :
    block? inComment rest = block? within behind := by
  simp only [block?, blockOf, same]

theorem blockOf_congr {behind : List Char} {within : Bool} (arguments : Arguments)
    (same : significant inComment rest = significant within behind) :
    blockOf arguments inComment rest = blockOf arguments within behind := by
  simp only [blockOf, same]

end

/-! ## Readers in front of a text -/

namespace OnePass

/-- The fields of the selections around the innermost level, in the order of the text. -/
def mentioned : List Frame → List Mention
  | [] => []
  | .set :: outer => mentioned outer
  | .branch name arguments before :: outer =>
      mentioned outer ++ (Selection.allMentions before ++ [⟨name, some arguments⟩])

end OnePass

def Pending.mentions (inComment : Bool) (behind : List Char) : Pending → List Mention
  | .nothing => []
  | .named name _ false =>
      [⟨name ++ String.ofList (behind.takeWhile isNameCharacter),
        block? inComment (behind.dropWhile isNameCharacter)⟩]
  | .named name _ true => [⟨name, block? inComment behind⟩]
  | .called name _ arguments => [⟨name, blockOf arguments inComment behind⟩]

def Pending.isJoined : Pending → Bool
  | .named _ _ ended => !ended
  | .nothing | .called _ _ _ => false

namespace OnePass

def Place.mentions (behind : List Char) : Place → List Mention
  | .between pending => pending.mentions false behind
  | .comment pending => pending.mentions true behind
  | .arguments name _ list => [⟨name, list.block? behind⟩]

def Place.isJoined : Place → Bool
  | .between pending => pending.isJoined
  | .comment _ | .arguments _ _ _ => false

/-- A comment has ended the name in front of it. -/
def Place.Settled : Place → Prop
  | .comment pending => pending.ended = pending
  | .between _ | .arguments _ _ _ => True

/-- All fields that a reader has met or will meet in the rest of the text, in order. -/
def Reader.mentions (reader : Reader) (rest : List Char) : List Mention :=
  mentioned reader.frames ++ Selection.allMentions reader.selections ++
    (reader.place.mentions rest ++
      (nameRuns reader.place.surroundings reader.place.isJoined rest).map NameRun.mention)

end OnePass

section

variable {character : Char} {inComment : Bool} {rest behind : List Char}
  {selections complete : List Selection} {pending : Pending}

/-- Where no name character follows, a name is not joined. -/
theorem mentions_named (name : String) (start : Position) (ended : Bool)
    (stops : behind.takeWhile isNameCharacter = []) :
    Pending.mentions inComment behind (.named name start ended) =
      [⟨name, block? inComment behind⟩] := by
  cases ended with
  | true => rfl
  | false =>
      have whole := List.takeWhile_append_dropWhile (p := isNameCharacter) (l := behind)
      rw [stops, List.nil_append] at whole
      rw [Pending.mentions, stops, whole, String.ofList_nil, String.append_empty]

/-- A field that is complete without a block is a leaf. -/
theorem mentions_of_flush (flushed : OnePass.flush selections pending = some complete)
    (stops : behind.takeWhile isNameCharacter = [])
    (noBlock : block? inComment behind = none) :
    Selection.allMentions complete =
      Selection.allMentions selections ++ pending.mentions inComment behind := by
  cases pending with
  | nothing =>
      cases flushed
      exact (List.append_nil _).symm
  | called name start arguments => cases flushed
  | named name start ended =>
      cases flushed
      rw [Selection.allMentions_concat, Selection.mentions, mentions_named name start ended stops,
        noBlock]

/-- A character that ends a name and is skipped behind it makes no difference. -/
theorem mentions_ended (notName : isNameCharacter character = false)
    (same : significant false (character :: rest) = significant inComment rest) :
    pending.ended.mentions inComment rest = pending.mentions false (character :: rest) := by
  cases pending with
  | nothing => rfl
  | called name start arguments =>
      rw [Pending.ended, Pending.mentions, Pending.mentions, blockOf_congr arguments same]
  | named name start ended =>
      rw [mentions_named name start ended (List.takeWhile_cons_of_neg (by simp [notName])),
        Pending.ended, Pending.mentions, ← block?_congr same]

end

namespace OnePass.Reader

variable {limit : DepthLimit} {frames : List Frame} {selections complete : List Selection}
  {pending : Pending} {character : Char} {here : Position} {after reader : Reader}
  {rest : List Char}

theorem mentions_between (frames : List Frame) (selections : List Selection) (pending : Pending)
    (rest : List Char) :
    mentions ⟨frames, selections, .between pending⟩ rest =
      mentioned frames ++ Selection.allMentions selections ++ (pending.mentions false rest ++
        (nameRuns .plain pending.isJoined rest).map NameRun.mention) := rfl

/-- A character that ends a name without a block completes the pending field. -/
theorem mentions_of_separator (flushed : flush selections pending = some complete)
    (notName : isNameCharacter character = false)
    (noBlock : block? false (character :: rest) = none)
    (plain : Surroundings.plain.after character = .plain) :
    mentions ⟨frames, complete, .between .nothing⟩ rest =
      mentions ⟨frames, selections, .between pending⟩ (character :: rest) := by
  have all := mentions_of_flush flushed (List.takeWhile_cons_of_neg (by simp [notName])) noBlock
  rw [mentions_between, mentions_between, nameRuns_of_other (fun _ => notName), plain, all]
  simp [Pending.mentions, Pending.isJoined]

/-- A closing brace leaves a set, whose selections join those around it, or the block of a
branch. -/
theorem mentions_closeBrace (closed : closeBrace frames selections pending = some after) :
    after.mentions rest = mentions ⟨frames, selections, .between pending⟩ ('}' :: rest) := by
  obtain ⟨complete, flushed, closed⟩ := Option.bind_eq_some_iff.mp closed
  rw [← mentions_of_separator flushed (by decide)
    (block?_eq_none (by decide) (by decide) (by decide) (by decide)) rfl]
  cases frames with
  | nil => cases closed
  | cons frame outer =>
      cases frame with
      | set =>
          cases closed
          rfl
      | branch name arguments before =>
          cases closed
          rw [mentions_between, mentions_between, Selection.allMentions_concat, mentioned,
            Selection.mentions]
          simp

theorem mentions_openBrace (opened : openBrace limit 1 frames selections pending = some after) :
    after.mentions rest = mentions ⟨frames, selections, .between pending⟩ ('{' :: rest) := by
  have others : nameRuns .plain pending.isJoined ('{' :: rest) = nameRuns .plain false rest :=
    nameRuns_of_other (fun _ => by decide) rest
  rw [mentions_between, others]
  -- Behind a field the brace opens a block with the arguments of the field.
  have block (name : String) (arguments : Arguments)
      (opened : openBlock limit 1 frames selections name arguments = some after) :
      after.mentions rest = mentioned frames ++ Selection.allMentions selections ++
        ([⟨name, some arguments⟩] ++ (nameRuns .plain false rest).map NameRun.mention) := by
    simp only [openBlock] at opened
    split at opened
    · cases opened
    · cases opened
      rw [mentions_between, mentioned]
      simp [Pending.mentions, Pending.isJoined, Selection.allMentions]
  cases pending with
  | nothing =>
      cases opened
      rfl
  | named name start ended =>
      rw [block name .empty opened, mentions_named name start ended rfl]
      rfl
  | called name start arguments =>
      rw [block name arguments opened]
      rfl

theorem mentions_openArguments
    (opened : openArguments frames selections .start pending = some after) :
    after.mentions rest = mentions ⟨frames, selections, .between pending⟩ ('(' :: rest) := by
  cases pending with
  | nothing => cases opened
  | called name start arguments => cases opened
  | named name start ended =>
      cases opened
      have others : nameRuns .plain (!ended) ('(' :: rest) = nameRuns .arguments false rest :=
        nameRuns_of_other (fun _ => by decide) rest
      rw [mentions_between, Pending.isJoined, others, mentions_named name start ended rfl]
      rfl

theorem mentions_writeName (accepted : isNameCharacter character = true)
    (written : writeName frames selections character here pending = some after) :
    after.mentions rest =
      mentions ⟨frames, selections, .between pending⟩ (character :: rest) := by
  obtain ⟨notBlank, notComment, notParenthesis, notBrace⟩ := isNameCharacter_inert accepted
  -- A character that begins a name completes the field before it.
  have begins (complete : List Selection)
      (all : Selection.allMentions complete =
        Selection.allMentions selections ++ pending.mentions false (character :: rest))
      (apart : pending.isJoined = false) :
      mentions ⟨frames, complete, .between (.named (String.singleton character) here false)⟩ rest =
        mentions ⟨frames, selections, .between pending⟩ (character :: rest) := by
    rw [mentions_between, mentions_between, apart, nameRuns_begun accepted, all]
    simp [Pending.mentions, Pending.isJoined, NameRun.mention]
  cases pending with
  | nothing =>
      cases written
      exact begins selections (List.append_nil _).symm rfl
  | called name start arguments => cases written
  | named name start ended =>
      cases ended with
      | false =>
          cases written
          rw [mentions_between, mentions_between, Pending.mentions, Pending.mentions,
            Pending.isJoined, Pending.isJoined, Bool.not_false, nameRuns_joined accepted,
            push_append_ofList, List.takeWhile_cons_of_pos accepted,
            List.dropWhile_cons_of_pos accepted]
      | true =>
          cases written
          refine begins _ ?_ rfl
          rw [Selection.allMentions_concat, Pending.mentions,
            block?_eq_none notBlank notComment notParenthesis notBrace]
          rfl

theorem mentions_stepBetween
    (stepped : stepBetween limit 1 frames selections pending character .start = some after) :
    after.mentions rest =
      mentions ⟨frames, selections, .between pending⟩ (character :: rest) := by
  simp only [stepBetween] at stepped
  split at stepped
  · next comment =>
      subst comment
      cases stepped
      rw [mentions_between, nameRuns_of_other (fun _ => by decide), ← mentions_ended (by decide) rfl]
      rfl
  split at stepped
  · next comma =>
      subst comma
      obtain ⟨complete, flushed, equal⟩ := Option.bind_eq_some_iff.mp stepped
      cases equal
      exact mentions_of_separator flushed (by decide)
        (block?_eq_none (by decide) (by decide) (by decide) (by decide)) rfl
  next notComment _ =>
  split at stepped
  · next blank =>
      cases stepped
      have notName : isNameCharacter character = false := by simp [isNameCharacter, blank]
      have plain : Surroundings.plain.after character = .plain := by
        rw [Surroundings.after, if_neg notComment, if_neg (Text.ne_of_accepts blank (by decide))]
      have notJoined : pending.ended.isJoined = false := by cases pending <;> rfl
      rw [mentions_between, mentions_between, nameRuns_of_other (fun _ => notName), plain,
        ← mentions_ended notName (significant_blank blank), notJoined]
  split at stepped
  · next parenthesis =>
      subst parenthesis
      exact mentions_openArguments stepped
  split at stepped
  · next opening =>
      subst opening
      exact mentions_openBrace stepped
  split at stepped
  · next closing =>
      subst closing
      exact mentions_closeBrace stepped
  split at stepped
  · next accepted => exact mentions_writeName accepted stepped
  · cases stepped

theorem settled_stepBetween
    (stepped : stepBetween limit 1 frames selections pending character .start = some after) :
    after.place.Settled := by
  by_cases comment : character = '#'
  · subst comment
    cases stepped
    cases pending <;> rfl
  · let block : Block := ⟨.start, .start, "", frames.length + 1, .plain⟩
    have plain : block.surroundings = .plain := rfl
    have seen := (seen_stepBetween plain rfl stepped).1
    rw [Surroundings.after, if_neg comment] at seen
    cases place : after.place with
    | between | arguments => trivial
    | comment =>
        rw [place, Place.surroundings] at seen
        split at seen <;> cases seen

theorem mentions_comment (settled : pending.ended = pending)
    (stepped : (⟨frames, selections, .comment pending⟩ : Reader).next limit character =
      some after) :
    after.place.Settled ∧
      after.mentions rest = mentions ⟨frames, selections, .comment pending⟩ (character :: rest) := by
  have others : nameRuns .comment false (character :: rest) =
      nameRuns (Surroundings.comment.after character) false rest :=
    nameRuns_of_other (by nofun) rest
  -- What the name is followed by is looked for in the same place, inside the comment or behind it.
  have skipped : pending.mentions true (character :: rest) =
      pending.mentions (character != '\n') rest := by
    have same : significant true (character :: rest) = significant (character != '\n') rest := rfl
    cases pending with
    | nothing => rfl
    | called name start arguments =>
        rw [Pending.mentions, Pending.mentions, blockOf_congr arguments same]
    | named name start ended =>
        cases settled
        rw [Pending.mentions, Pending.mentions, block?_congr same]
  simp only [step] at stepped
  split at stepped
  · next newline =>
      subst newline
      cases stepped
      have notJoined : pending.isJoined = false := by
        rw [← settled]
        cases pending <;> rfl
      refine ⟨trivial, ?_⟩
      rw [mentions_between, notJoined]
      simp only [mentions, Place.mentions, Place.surroundings, Place.isJoined, others, skipped]
      rfl
  · next inside =>
      cases stepped
      have stays : Surroundings.comment.after character = .comment := if_neg inside
      have isInside : (character != '\n') = true := bne_iff_ne.mpr inside
      refine ⟨settled, ?_⟩
      simp only [mentions, Place.mentions, Place.surroundings, Place.isJoined, others, skipped,
        stays, isInside]

theorem mentions_arguments {name : String} {start : Position} {list : ArgumentList}
    (stepped : (⟨frames, selections, .arguments name start list⟩ : Reader).next limit character =
      some after) :
    after.place.Settled ∧
      after.mentions rest =
        mentions ⟨frames, selections, .arguments name start list⟩ (character :: rest) := by
  have others : nameRuns list.slot.surroundings false (character :: rest) =
      nameRuns (list.slot.surroundings.after character) false rest :=
    nameRuns_of_other (fun plain => absurd plain list.slot.surroundings_ne_plain) rest
  simp only [step] at stepped
  simp only [mentions, Place.mentions, Place.surroundings, Place.isJoined, others]
  split at stepped
  · cases stepped
  · next next accepted =>
      cases stepped
      rw [ArgumentList.block?, accepted, ← (ArgumentList.surroundings_step accepted).2]
      exact ⟨trivial, rfl⟩
  · next arguments accepted =>
      cases stepped
      rw [ArgumentList.block?, accepted, ← (ArgumentList.surroundings_step accepted).2]
      exact ⟨trivial, rfl⟩

/-- A step takes a character from the text and nothing from the fields. -/
theorem mentions_step (settled : reader.place.Settled)
    (stepped : reader.next limit character = some after) :
    after.place.Settled ∧ after.mentions rest = reader.mentions (character :: rest) := by
  obtain ⟨frames, selections, place⟩ := reader
  cases place with
  | between pending => exact ⟨settled_stepBetween stepped, mentions_stepBetween stepped⟩
  | comment pending => exact mentions_comment settled stepped
  | arguments name start list => exact mentions_arguments stepped

theorem mentions_finish (finished : reader.finish = some selections) :
    Selection.allMentions selections = reader.mentions [] := by
  obtain ⟨frames, before, place⟩ := reader
  cases frames with
  | cons frame outer => cases place <;> cases finished
  | nil =>
      cases place with
      | between pending =>
          have noBlock : block? false [] = none := rfl
          rw [mentions_of_flush finished rfl noBlock]
          simp [mentions, mentioned, Place.mentions, nameRuns]
      | comment pending =>
          have noBlock : block? true [] = none := rfl
          rw [mentions_of_flush finished rfl noBlock]
          simp [mentions, mentioned, Place.mentions, nameRuns]
      | arguments name start list => cases finished

theorem mentions_gives (settled : reader.place.Settled)
    (given : reader.gives limit rest = some selections) :
    Selection.allMentions selections = reader.mentions rest := by
  induction rest generalizing reader with
  | nil => exact mentions_finish given
  | cons character rest ih =>
      rw [gives_cons] at given
      obtain ⟨after, stepped, later⟩ := Option.bind_eq_some_iff.mp given
      obtain ⟨stillSettled, same⟩ := mentions_step settled stepped
      rw [ih stillSettled later, same]

end OnePass.Reader

/-- The names of a query, each in front of those in its block, are the maximal runs of name
characters of the text outside comments and argument lists, in the order of the text. A name is that
of a branch exactly when the next significant character behind its run opens a block, where one
argument list may stand in between and gives the arguments. -/
theorem allMentions_of_parse {limit : DepthLimit} {text : String} {selections : List Selection}
    (parsed : parse limit text = .ok selections) :
    ∃ runs : List NameRun,
      (∀ run, run ∈ runs ↔ run.StandsIn text.toList) ∧ runs.Pairwise NameRun.Before ∧
        Selection.allMentions selections = runs.map NameRun.mention := by
  rw [← Fallible.toOption_eq_some_iff, toOption_parse, OnePass.Reader.read_eq_gives] at parsed
  have settled : OnePass.Reader.start.place.Settled := trivial
  refine ⟨nameRuns .plain false text.toList, fun run => mem_nameRuns_iff_standsIn,
    pairwise_nameRuns _ _ _, ?_⟩
  exact OnePass.Reader.mentions_gives settled parsed

def crowdedText : String := "\x7ba#\x7bb\nc # )\n(k:\"\x7dd(#\")#e\n\x7bf,g\x7b\x7dh\x7di j\x7d"

theorem allMentions_crowdedText :
    let selections : List Selection :=
      [.leaf "a", .branch "c" (Dict.empty.insert "k" (.text "\x7dd(#"))
        [.leaf "f", .branch "g" .empty [], .leaf "h"], .leaf "i", .leaf "j"]
    parse ⟨3⟩ crowdedText = .ok selections ∧
      ∃ runs : List NameRun,
        (∀ run, run ∈ runs ↔ run.StandsIn crowdedText.toList) ∧
          runs.Pairwise NameRun.Before ∧
          [⟨"a", none⟩, ⟨"c", some (Dict.empty.insert "k" (.text "\x7dd(#"))⟩, ⟨"f", none⟩,
            ⟨"g", some .empty⟩, ⟨"h", none⟩, ⟨"i", none⟩, ⟨"j", none⟩] =
              runs.map NameRun.mention := by
  intro selections
  have parsed : parse ⟨3⟩ crowdedText = .ok selections := by
    rw [← Fallible.toOption_eq_some_iff, toOption_parse]
    decide +kernel
  exact ⟨parsed, allMentions_of_parse parsed⟩

end FieldQuery.Query
