import FieldQuery.Proofs.Query.ArgumentListReading
import FieldQuery.Proofs.Query.OnePassAgreement

/-!
# Reading canonical text

The canonical text of a list of well-formed selections, read in one pass from a place where no
field is pending, gives just those selections, whatever is open around them.
-/

set_option autoImplicit false

namespace FieldQuery.Query.OnePass.Reader

theorem step_of_isNameCharacter {character : Char}
    (accepted : isNameCharacter character = true) (limit : DepthLimit) (outermost : Nat)
    (frames : List Frame) (selections : List Selection) (pending : Pending) (here : Position) :
    step limit outermost ⟨frames, selections, .between pending⟩ character here =
      writeName frames selections character here pending := by
  have ne {other : Char} (refused : isNameCharacter other = false) : character ≠ other :=
    Text.ne_of_accepts accepted refused
  have notBlank : ¬ Text.isBlank character = true := by
    simp only [isNameCharacter, Bool.and_eq_true, Bool.not_eq_true'] at accepted
    simp [accepted.1.1]
  show stepBetween limit outermost frames selections pending character here = _
  rw [stepBetween, if_neg (ne (by decide)), if_neg (ne (by decide)), if_neg notBlank,
    if_neg (ne (by decide)), if_neg (ne (by decide)), if_neg (ne (by decide)), if_pos accepted]

variable (limit : DepthLimit) (outermost : Nat) (frames : List Frame) (selections : List Selection)

theorem run_nameCharacters (characters : List Char)
    (accepted : ∀ character ∈ characters, isNameCharacter character = true) (name : String)
    (start here : Position) :
    run limit outermost ⟨frames, selections, .between (.named name start false)⟩ here characters =
      some ⟨frames, selections,
        .between (.named (name ++ String.ofList characters) start false)⟩ := by
  induction characters generalizing name here with
  | nil => simp
  | cons character rest ih =>
      have stepped := step_of_isNameCharacter (accepted character List.mem_cons_self)
        limit outermost frames selections (.named name start false) here
      rw [run_cons_of_step stepped,
        ih fun other member => accepted other (List.mem_cons_of_mem _ member),
        push_append_ofList]

theorem run_name {name : String} (isName : IsName name) (here : Position) :
    run limit outermost ⟨frames, selections, .between .nothing⟩ here name.toList =
      some ⟨frames, selections, .between (.named name here false)⟩ := by
  obtain ⟨nonempty, accepted⟩ := isName
  cases characters : name.toList with
  | nil => exact absurd (String.toList_eq_nil_iff.mp characters) nonempty
  | cons character rest =>
      rw [characters] at accepted
      have stepped := step_of_isNameCharacter (accepted character List.mem_cons_self)
        limit outermost frames selections .nothing here
      have whole : String.singleton character ++ String.ofList rest = name := by
        rw [← String.toList_inj, characters]
        simp
      rw [run_cons_of_step stepped, run_nameCharacters _ _ _ _ _
        fun other member => accepted other (List.mem_cons_of_mem _ member), whole]

/-- An open argument list is read as it is read by itself. -/
theorem run_feed {list after : ArgumentList} {here : Position} {characters : List Char}
    (fed : list.feed here characters = some after) (name : String) (start : Position) :
    run limit outermost ⟨frames, selections, .arguments name start list⟩ here characters =
      some ⟨frames, selections, .arguments name start after⟩ := by
  induction characters generalizing list here with
  | nil =>
      cases fed
      rfl
  | cons character rest ih =>
      rw [ArgumentList.feed] at fed
      split at fed
      · next waiting accepted =>
          have stepped : step limit outermost
              ⟨frames, selections, .arguments name start list⟩ character here =
                some ⟨frames, selections, .arguments name start waiting⟩ := by
            simp only [step, accepted]
          rw [run_cons_of_step stepped]
          exact ih fed
      · cases fed

/-- Behind a name, canonical arguments leave a field to which an opening brace gives a block with
just these arguments. -/
theorem run_canonicalArguments {arguments : Arguments} (areKeys : HasKeys arguments)
    (name : String) (start here : Position) :
    ∃ pending,
      run limit outermost ⟨frames, selections, .between (.named name start false)⟩ here
          (canonicalArguments arguments) =
        some ⟨frames, selections, .between pending⟩ ∧
      ∀ there, step limit outermost ⟨frames, selections, .between pending⟩ '{' there =
        openBlock limit outermost frames selections name arguments := by
  by_cases empty : arguments.entries = []
  · obtain rfl : arguments = .empty := Dict.eq_of_entries_eq empty
    exact ⟨.named name start false, rfl, fun there => rfl⟩
  · have written : arguments.isEmpty = false := by
      rw [Dict.isEmpty, List.isEmpty_eq_false_iff]
      exact empty
    obtain ⟨list, fed, closed⟩ := ArgumentList.feed_canonicalArguments here empty areKeys
      (here.advance '(')
    refine ⟨.called name start arguments, ?_, fun there => rfl⟩
    have opened : step limit outermost
        ⟨frames, selections, .between (.named name start false)⟩ '(' here =
          some ⟨frames, selections, .arguments name start (.opened here)⟩ := rfl
    rw [canonicalArguments, written, if_neg (by simp), run_cons_of_step opened, run_append,
      run_feed limit outermost frames selections fed, Option.bind_some]
    apply run_cons_of_step
    simp only [step, closed]

/-- Characters that are read as the selections that they add, wherever no field is pending. The
last of them may still be pending behind the characters. -/
def Adds (frames : List Frame) (characters : List Char) (added : List Selection) : Prop :=
  ∀ before here, ∃ shown pending,
    run .unlimited outermost ⟨frames, before, .between .nothing⟩ here characters =
      some ⟨frames, shown, .between pending⟩ ∧
    flush shown pending = some (before ++ added)

theorem adds_leaf {name : String} (isName : IsName name) :
    Adds outermost frames (canonicalSelection (.leaf name)) [.leaf name] := by
  intro before here
  refine ⟨before, .named name here false, ?_, rfl⟩
  rw [canonicalSelection]
  exact run_name .unlimited outermost frames before isName here

theorem adds_branch {name : String} {arguments : Arguments} {nested : List Selection}
    (isName : IsName name) (areKeys : HasKeys arguments)
    (block : ∀ frames, Adds outermost frames ([','].intercalate (canonicalEach nested)) nested) :
    Adds outermost frames (canonicalSelection (.branch name arguments nested))
      [.branch name arguments nested] := by
  intro before here
  -- Inside the braces the frame of the branch is added, so the block is needed for all frames.
  obtain ⟨pending, called, opens⟩ := run_canonicalArguments .unlimited outermost frames before
    areKeys name here (here.after name.toList)
  obtain ⟨shown, last, inside, flushed⟩ :=
    block (.branch name arguments before :: frames) []
      (((here.after name.toList).after (canonicalArguments arguments)).advance '{')
  refine ⟨before ++ [.branch name arguments nested], .nothing, ?_, rfl⟩
  rw [canonicalSelection, run_append, run_name .unlimited outermost frames before isName here,
    Option.bind_some, run_append, called, Option.bind_some]
  have opened := opens ((here.after name.toList).after (canonicalArguments arguments))
  rw [openBlock, if_neg (by simp)] at opened
  rw [run_cons_of_step opened, run_append, inside, Option.bind_some]
  apply run_cons_of_step
  show closeBrace (.branch name arguments before :: frames) shown last = _
  rw [closeBrace, flushed]
  rfl

/-- A comma completes what the characters before it have added. -/
theorem adds_comma {front back : List Char} {added more : List Selection}
    (first : Adds outermost frames front added) (rest : Adds outermost frames back more) :
    Adds outermost frames (front ++ ',' :: back) (added ++ more) := by
  intro before here
  obtain ⟨shown, pending, ran, flushed⟩ := first before here
  obtain ⟨final, last, remaining, completed⟩ :=
    rest (before ++ added) ((here.after front).advance ',')
  refine ⟨final, last, ?_, by rw [completed, List.append_assoc]⟩
  have separated : step .unlimited outermost ⟨frames, shown, .between pending⟩ ','
      (here.after front) = some ⟨frames, before ++ added, .between .nothing⟩ := by
    show (flush shown pending).bind _ = _
    rw [flushed]
    rfl
  rw [run_append, ran, Option.bind_some, run_cons_of_step separated, remaining]

mutual

theorem adds_canonicalSelection (selection : Selection) (wellFormed : WellFormed selection)
    (frames : List Frame) :
    Adds outermost frames (canonicalSelection selection) [selection] :=
  match selection, wellFormed with
  | .leaf _, isName => adds_leaf outermost frames isName
  | .branch _ _ nested, ⟨isName, areKeys, allWellFormed⟩ =>
      adds_branch outermost frames isName areKeys fun frames =>
        adds_canonicalEach nested allWellFormed frames

theorem adds_canonicalEach (selections : List Selection) (wellFormed : AllWellFormed selections)
    (frames : List Frame) :
    Adds outermost frames ([','].intercalate (canonicalEach selections)) selections :=
  match selections, wellFormed with
  | [], _ => fun before _ => ⟨before, .nothing, rfl, by rw [flush, List.append_nil]⟩
  | [selection], ⟨wellFormed, _⟩ => by
      rw [canonicalEach, canonicalEach, List.intercalate_singleton]
      exact adds_canonicalSelection selection wellFormed frames
  | selection :: next :: rest, ⟨wellFormed, remaining⟩ => by
      rw [canonicalEach, canonicalEach, List.intercalate_cons_cons, List.append_assoc,
        ← canonicalEach]
      exact adds_comma outermost frames (adds_canonicalSelection selection wellFormed frames)
        (adds_canonicalEach (next :: rest) remaining frames)

end

/-- The canonical text of well-formed selections is read as these selections. -/
theorem read_canonicalText {selections : List Selection} (wellFormed : AllWellFormed selections) :
    read .unlimited (canonicalText selections) = some selections := by
  obtain ⟨shown, pending, ran, flushed⟩ :=
    adds_canonicalEach 1 selections wellFormed [] [] .start
  rw [read, readLevel, canonicalText, String.toList_ofList, Reader.start, ran, Option.bind_some]
  exact flushed

end FieldQuery.Query.OnePass.Reader
