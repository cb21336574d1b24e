import FieldQuery.Proofs.Text.CharacterClasses
import FieldQuery.Query.Level
import Mathlib.Data.List.TakeWhile

/-!
# Runs of name characters

The names that stand in a text are its maximal runs of name characters outside comments and
argument lists. One pass over the text finds all of them in order.
-/

set_option autoImplicit false

namespace FieldQuery.Query

structure NameRun where
  name : List Char
  behind : List Char
  deriving DecidableEq

namespace NameRun

/-- A run that could not be longer, as far as the text behind it goes. -/
structure Full (run : NameRun) : Prop where
  nonempty : run.name ≠ []
  names : ∀ character ∈ run.name, isNameCharacter character = true
  ends : ∀ character ∈ run.behind.head?, isNameCharacter character = false

/-- A maximal run of name characters in a text, outside comments and argument lists. -/
def StandsIn (run : NameRun) (text : List Char) : Prop :=
  ∃ front, text = front ++ (run.name ++ run.behind) ∧
    front.foldl Surroundings.after .plain = .plain ∧
    (∀ character ∈ front.getLast?, isNameCharacter character = false) ∧ run.Full

def Before (first second : NameRun) : Prop := second.behind.length < first.behind.length

end NameRun

/-- The maximal runs of name characters outside comments and argument lists, in order. A run begins
at a name character in front of which there is none; `joined` says whether there is one in front of
the text. -/
def nameRuns (surroundings : Surroundings) (joined : Bool) : List Char → List NameRun
  | [] => []
  | character :: rest =>
      let inName := decide (surroundings = .plain) && isNameCharacter character
      let later := nameRuns (surroundings.after character) inName rest
      if inName && !joined then
        ⟨character :: rest.takeWhile isNameCharacter, rest.dropWhile isNameCharacter⟩ :: later
      else later

section

variable {surroundings : Surroundings} {joined : Bool} {character : Char} {text rest : List Char}
  {run : NameRun}

theorem isNameCharacter_inert (accepted : isNameCharacter character = true) :
    Text.isBlank character = false ∧ character ≠ '#' ∧ character ≠ '(' ∧ character ≠ '{' := by
  refine ⟨?_, Text.ne_of_accepts accepted (by decide), Text.ne_of_accepts accepted (by decide),
    Text.ne_of_accepts accepted (by decide)⟩
  simp only [isNameCharacter, Bool.and_eq_true, Bool.not_eq_true'] at accepted
  exact accepted.1.1

theorem plain_after_isNameCharacter (accepted : isNameCharacter character = true) :
    Surroundings.plain.after character = .plain := by
  obtain ⟨_, notComment, notParenthesis, _⟩ := isNameCharacter_inert accepted
  rw [Surroundings.after, if_neg notComment, if_neg notParenthesis]

/-- A name character ends neither a comment nor an argument list. -/
theorem plain_of_after (accepted : isNameCharacter character = true)
    (plain : surroundings.after character = .plain) : surroundings = .plain := by
  have notNewline : character ≠ '\n' := by
    rintro rfl
    exact absurd accepted (by decide)
  have notClosing : character ≠ ')' := Text.ne_of_accepts accepted (by decide)
  have notQuote : character ≠ '"' := Text.ne_of_accepts accepted (by decide)
  have notBackslash : character ≠ '\\' := Text.ne_of_accepts accepted (by decide)
  cases surroundings with
  | plain => rfl
  | comment | arguments | quoted | escaped =>
      simp [Surroundings.after, notNewline, notClosing, notQuote, notBackslash] at plain

theorem nameRuns_of_other
    (other : surroundings = .plain → isNameCharacter character = false) (rest : List Char) :
    nameRuns surroundings joined (character :: rest) =
      nameRuns (surroundings.after character) false rest := by
  have outside : (decide (surroundings = .plain) && isNameCharacter character) = false := by
    cases surroundings with
    | plain => exact other rfl
    | comment | arguments | quoted | escaped => rfl
  rw [nameRuns, outside]
  rfl

theorem nameRuns_joined (accepted : isNameCharacter character = true) (rest : List Char) :
    nameRuns .plain true (character :: rest) = nameRuns .plain true rest := by
  rw [nameRuns, accepted, plain_after_isNameCharacter accepted]
  rfl

theorem nameRuns_begun (accepted : isNameCharacter character = true) (rest : List Char) :
    nameRuns .plain false (character :: rest) =
      ⟨character :: rest.takeWhile isNameCharacter, rest.dropWhile isNameCharacter⟩ ::
        nameRuns .plain true rest := by
  rw [nameRuns, accepted, plain_after_isNameCharacter accepted]
  rfl

/-! ## Which runs there are -/

theorem NameRun.Full.eq (full : run.Full) (split : character :: rest = run.name ++ run.behind) :
    isNameCharacter character = true ∧
      run = ⟨character :: rest.takeWhile isNameCharacter, rest.dropWhile isNameCharacter⟩ := by
  obtain ⟨name, behind⟩ := run
  obtain ⟨nonempty, names, ends⟩ := full
  cases name with
  | nil => exact absurd rfl nonempty
  | cons first name =>
      obtain ⟨accepted, others⟩ := List.forall_mem_cons.mp names
      obtain ⟨rfl, rfl⟩ : character = first ∧ rest = name ++ behind := List.cons.inj split
      have stops : behind.takeWhile isNameCharacter = [] ∧
          behind.dropWhile isNameCharacter = behind := by
        cases behind with
        | nil => exact ⟨rfl, rfl⟩
        | cons next behind =>
            have notName : ¬ isNameCharacter next = true := by simp [ends next rfl]
            exact ⟨List.takeWhile_cons_of_neg notName, List.dropWhile_cons_of_neg notName⟩
      refine ⟨accepted, ?_⟩
      rw [List.takeWhile_append_of_pos others, List.dropWhile_append_of_pos others, stops.1,
        stops.2, List.append_nil]

theorem full_of_isNameCharacter (accepted : isNameCharacter character = true)
    (rest : List Char) :
    NameRun.Full
      ⟨character :: rest.takeWhile isNameCharacter, rest.dropWhile isNameCharacter⟩ := by
  refine ⟨nofun, ?_, ?_⟩
  · exact List.forall_mem_cons.mpr ⟨accepted, fun _ member => List.mem_takeWhile_imp member⟩
  · intro next isNext
    have stops := List.head?_dropWhile_not isNameCharacter rest
    rw [isNext] at stops
    simpa using stops

theorem mem_nameRuns_cons :
    run ∈ nameRuns surroundings joined (character :: rest) ↔
      (surroundings = .plain ∧ isNameCharacter character = true ∧ joined = false ∧
        run = ⟨character :: rest.takeWhile isNameCharacter, rest.dropWhile isNameCharacter⟩) ∨
      run ∈ nameRuns (surroundings.after character)
        (decide (surroundings = .plain) && isNameCharacter character) rest := by
  simp only [nameRuns]
  split
  · next begins =>
      simp only [Bool.and_eq_true, decide_eq_true_eq, Bool.not_eq_true'] at begins
      simp [begins]
  · next stays =>
      simp only [Bool.and_eq_true, decide_eq_true_eq, Bool.not_eq_true', not_and] at stays
      constructor
      · exact .inr
      · rintro (⟨plain, accepted, apart, _⟩ | later)
        · exact absurd apart (stays ⟨plain, accepted⟩)
        · exact later

theorem mem_nameRuns_iff :
    run ∈ nameRuns surroundings joined text ↔
      ∃ front, text = front ++ (run.name ++ run.behind) ∧
        front.foldl Surroundings.after surroundings = .plain ∧
        (front.getLast?.map isNameCharacter).getD joined = false ∧ run.Full := by
  induction text generalizing surroundings joined with
  | nil =>
      refine ⟨nofun, ?_⟩
      rintro ⟨front, split, _, _, full⟩
      have none := (List.append_eq_nil_iff.mp split.symm).2
      exact absurd (List.append_eq_nil_iff.mp none).1 full.nonempty
  | cons character rest ih =>
      rw [mem_nameRuns_cons, ih]
      -- Only where the text goes on outside does it matter whether the character was in a name.
      have sameEnd (front : List Char)
          (outside : front.foldl Surroundings.after (surroundings.after character) = .plain) :
          (front.getLast?.map isNameCharacter).getD
              (decide (surroundings = .plain) && isNameCharacter character) =
            ((character :: front).getLast?.map isNameCharacter).getD joined := by
        rw [List.getLast?_cons]
        cases last : front.getLast? with
        | some => rfl
        | none =>
            cases List.getLast?_eq_none_iff.mp last
            cases accepted : isNameCharacter character with
            | false => simp [accepted]
            | true => simp [accepted, plain_of_after accepted outside]
      constructor
      · rintro (⟨plain, accepted, apart, rfl⟩ | ⟨front, split, outside, apart, full⟩)
        · refine ⟨[], ?_, plain, apart, full_of_isNameCharacter accepted rest⟩
          simp
        · exact ⟨character :: front, congrArg (character :: ·) split, outside,
            sameEnd front outside ▸ apart, full⟩
      · rintro ⟨front, split, outside, apart, full⟩
        cases front with
        | nil =>
            obtain ⟨accepted, isRun⟩ := full.eq split
            exact .inl ⟨outside, accepted, apart, isRun⟩
        | cons first front =>
            cases split
            exact .inr ⟨front, rfl, outside, (sameEnd front outside).trans apart, full⟩

theorem mem_nameRuns_iff_standsIn : run ∈ nameRuns .plain false text ↔ run.StandsIn text := by
  rw [mem_nameRuns_iff, NameRun.StandsIn]
  refine exists_congr fun front => and_congr_right fun _ => and_congr_right fun _ =>
    and_congr_left fun _ => ?_
  cases front.getLast? with
  | none => simp
  | some last => simp

/-! ## Their order -/

theorem length_behind_lt (member : run ∈ nameRuns surroundings joined text) :
    run.behind.length < text.length := by
  induction text generalizing surroundings joined with
  | nil => cases member
  | cons character rest ih =>
      rw [List.length_cons, Nat.lt_succ_iff]
      rcases mem_nameRuns_cons.mp member with ⟨_, _, _, rfl⟩ | later
      · exact (List.dropWhile_sublist _).length_le
      · exact Nat.le_of_lt (ih later)

/-- The rest of a run that has begun in front of a text is none of the runs in the text. -/
theorem length_behind_lt_of_joined (member : run ∈ nameRuns .plain true text) :
    run.behind.length < (text.dropWhile isNameCharacter).length := by
  induction text with
  | nil => cases member
  | cons character rest ih =>
      cases accepted : isNameCharacter character with
      | true =>
          rw [nameRuns_joined accepted] at member
          rw [List.dropWhile_cons_of_pos accepted]
          exact ih member
      | false =>
          rw [List.dropWhile_cons_of_neg (by simp [accepted])]
          exact length_behind_lt member

theorem pairwise_nameRuns (surroundings : Surroundings) (joined : Bool) (text : List Char) :
    (nameRuns surroundings joined text).Pairwise NameRun.Before := by
  induction text generalizing surroundings joined with
  | nil => exact .nil
  | cons character rest ih =>
      by_cases begins : surroundings = .plain ∧ isNameCharacter character = true
      · obtain ⟨rfl, accepted⟩ := begins
        cases joined with
        | true =>
            rw [nameRuns_joined accepted]
            exact ih .plain true
        | false =>
            rw [nameRuns_begun accepted]
            exact .cons (fun _ member => length_behind_lt_of_joined member) (ih .plain true)
      · rw [nameRuns_of_other fun plain => by simpa [plain] using begins]
        exact ih _ false

end

end FieldQuery.Query
