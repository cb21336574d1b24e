import FieldQuery.Proofs.DepthLimit
import FieldQuery.Proofs.Query.OnePass

/-!
# Blocks that a reader opens

A depth limit matters to a reader only at a brace that opens a block. So a reader under a limit
does what the unlimited one does up to the first block that lies too deep, and it refuses the brace
of that block.
-/

set_option autoImplicit false

namespace FieldQuery.Query.OnePass

namespace Reader

def Opens (reader : Reader) (character : Char) : Prop :=
  character = '{' ∧ ∃ pending, reader.place = .between pending ∧ pending ≠ .nothing

theorem step_of_opens {reader : Reader} (opens : reader.Opens '{') :
    ∃ name arguments, ∀ limit outermost here,
      reader.step limit outermost '{' here =
        openBlock limit outermost reader.frames reader.selections name arguments := by
  obtain ⟨frames, selections, place⟩ := reader
  obtain ⟨_, pending, rfl, isField⟩ := opens
  cases pending with
  | nothing => exact absurd rfl isField
  | named name start ended => exact ⟨name, .empty, fun _ _ _ => rfl⟩
  | called name start arguments => exact ⟨name, arguments, fun _ _ _ => rfl⟩

theorem step_eq_step_of_not_opens {reader : Reader} {character : Char}
    (plain : ¬ reader.Opens character) (limit other : DepthLimit) (outermost deeper : Nat)
    (here : Position) :
    reader.step limit outermost character here = reader.step other deeper character here := by
  obtain ⟨frames, selections, place⟩ := reader
  cases place with
  | comment pending => rfl
  | arguments name start list => rfl
  | between pending =>
      by_cases brace : character = '{'
      · cases pending with
        | nothing =>
            subst brace
            rfl
        | named => exact absurd ⟨brace, _, rfl, by simp⟩ plain
        | called => exact absurd ⟨brace, _, rfl, by simp⟩ plain
      · simp only [step, stepBetween, if_neg brace]

variable {limit : DepthLimit} {outermost : Nat} {reader next last : Reader} {character : Char}
  {here : Position}

theorem step_eq_none_of_opens (opens : reader.Opens character)
    (tooDeep : limit.exceededBy (outermost + blocks reader.frames + 1) = true) :
    reader.step limit outermost character here = none := by
  obtain rfl := opens.1
  obtain ⟨name, arguments, stepped⟩ := step_of_opens opens
  rw [stepped, openBlock, if_pos tooDeep]

/-- Only the depth of a block that a character opens can make a difference. -/
theorem step_eq_step_unlimited
    (allowed : reader.Opens character →
      limit.exceededBy (outermost + blocks reader.frames + 1) = false) :
    reader.step limit outermost character here =
      reader.step .unlimited outermost character here := by
  by_cases opens : reader.Opens character
  · obtain rfl := opens.1
    obtain ⟨name, arguments, stepped⟩ := step_of_opens opens
    rw [stepped, stepped, openBlock, openBlock, allowed opens]
    rfl
  · exact step_eq_step_of_not_opens opens limit .unlimited outermost outermost here

theorem step_unlimited_of_step (stepped : reader.step limit outermost character here = some next) :
    reader.step .unlimited outermost character here = some next := by
  rw [← step_eq_step_unlimited, stepped]
  intro opens
  rw [← Bool.not_eq_true]
  intro tooDeep
  rw [step_eq_none_of_opens opens tooDeep] at stepped
  cases stepped

theorem run_unlimited_of_run {characters : List Char}
    (ran : reader.run limit outermost here characters = some last) :
    reader.run .unlimited outermost here characters = some last := by
  induction characters generalizing reader here with
  | nil => exact ran
  | cons character rest ih =>
      obtain ⟨next, stepped, further⟩ := Option.bind_eq_some_iff.mp ran
      rw [run_cons_of_step (step_unlimited_of_step stepped)]
      exact ih further

/-- What the unlimited reader accepts and a limited one refuses is the brace of a block that lies
too deep. -/
theorem opens_of_refused (refused : reader.step limit outermost character here = none)
    (accepted : reader.step .unlimited outermost character here = some next) :
    reader.Opens character ∧ limit.exceededBy (outermost + blocks reader.frames + 1) = true := by
  by_cases opens : reader.Opens character
  · cases tooDeep : limit.exceededBy (outermost + blocks reader.frames + 1) with
    | true => exact ⟨opens, rfl⟩
    | false =>
        rw [step_eq_step_unlimited fun _ => tooDeep, accepted] at refused
        cases refused
  · rw [step_eq_step_unlimited fun opened => absurd opened opens, accepted] at refused
    cases refused

theorem blocks_openBlock {frames : List Frame} {selections : List Selection} {name : String}
    {arguments : Arguments}
    (opened : openBlock limit outermost frames selections name arguments = some next) :
    limit.exceededBy (outermost + blocks next.frames) = false := by
  simp only [openBlock] at opened
  split at opened
  · cases opened
  · next allowed =>
      cases opened
      exact Bool.not_eq_true _ ▸ allowed

theorem blocks_closeBrace {frames : List Frame} {selections : List Selection} {pending : Pending}
    (closed : closeBrace frames selections pending = some next) :
    blocks next.frames ≤ blocks frames := by
  obtain ⟨complete, _, closed⟩ := Option.bind_eq_some_iff.mp closed
  cases frames with
  | nil => cases closed
  | cons frame outer =>
      cases frame <;> cases closed
      · exact Nat.le_refl _
      · exact Nat.le_succ _

theorem frames_writeName {frames : List Frame} {selections : List Selection} {pending : Pending}
    (written : writeName frames selections character here pending = some next) :
    next.frames = frames := by
  simp only [writeName] at written
  split at written
  · cases written
    rfl
  · obtain ⟨complete, _, equal⟩ := Option.bind_eq_some_iff.mp written
    cases equal
    rfl

theorem blocks_stepBetween {frames : List Frame} {selections : List Selection}
    {pending : Pending}
    (stepped : stepBetween limit outermost frames selections pending character here = some next) :
    blocks next.frames ≤ blocks frames ∨
      limit.exceededBy (outermost + blocks next.frames) = false := by
  simp only [stepBetween] at stepped
  split at stepped
  · cases stepped
    exact .inl (Nat.le_refl _)
  split at stepped
  · obtain ⟨complete, _, equal⟩ := Option.bind_eq_some_iff.mp stepped
    cases equal
    exact .inl (Nat.le_refl _)
  split at stepped
  · cases stepped
    exact .inl (Nat.le_refl _)
  split at stepped
  · cases pending <;> cases stepped
    exact .inl (Nat.le_refl _)
  split at stepped
  · cases pending with
    | nothing =>
        cases stepped
        exact .inl (Nat.le_refl _)
    | named => exact .inr (blocks_openBlock stepped)
    | called => exact .inr (blocks_openBlock stepped)
  split at stepped
  · exact .inl (blocks_closeBrace stepped)
  split at stepped
  · rw [frames_writeName stepped]
    exact .inl (Nat.le_refl _)
  · cases stepped

theorem blocks_step (stepped : reader.step limit outermost character here = some next) :
    blocks next.frames ≤ blocks reader.frames ∨
      limit.exceededBy (outermost + blocks next.frames) = false := by
  obtain ⟨frames, selections, place⟩ := reader
  cases place with
  | between pending => exact blocks_stepBetween stepped
  | comment pending =>
      simp only [step] at stepped
      split at stepped <;> cases stepped <;> exact .inl (Nat.le_refl _)
  | arguments name start list =>
      simp only [step] at stepped
      split at stepped <;> cases stepped <;> exact .inl (Nat.le_refl _)

/-- Every level that a reader is in lies within its limit. -/
theorem allowed_of_run {characters : List Char}
    (allowed : limit.exceededBy (outermost + blocks reader.frames) = false)
    (ran : reader.run limit outermost here characters = some last) :
    limit.exceededBy (outermost + blocks last.frames) = false := by
  induction characters generalizing reader here with
  | nil =>
      cases ran
      exact allowed
  | cons character rest ih =>
      obtain ⟨next, stepped, further⟩ := Option.bind_eq_some_iff.mp ran
      refine ih ?_ further
      rcases blocks_step stepped with shallower | within
      · exact DepthLimit.exceededBy_eq_false_of_le (Nat.add_le_add_left shallower outermost) allowed
      · exact within

theorem not_closes_of_step (stepped : reader.step limit outermost character here = some next) :
    ¬ reader.Closes character := by
  obtain ⟨frames, selections, place⟩ := reader
  rintro ⟨rfl, rfl, pending, rfl⟩
  obtain ⟨complete, _, closed⟩ := Option.bind_eq_some_iff.mp
    (show closeBrace [] selections pending = some next from stepped)
  cases closed

/-- What a reader reads by itself it reads in the same way with more frames around it. -/
theorem run_under {outer : List Frame} {characters : List Char}
    (ran : reader.run limit (outermost + blocks outer) here characters = some last) :
    (reader.under outer).run limit outermost here characters = some (last.under outer) := by
  induction characters generalizing reader here with
  | nil =>
      cases ran
      rfl
  | cons character rest ih =>
      obtain ⟨next, stepped, further⟩ := Option.bind_eq_some_iff.mp ran
      have lifted := step_under (not_closes_of_step stepped) limit outermost outer here
      rw [stepped, Option.map_some] at lifted
      rw [run_cons_of_step lifted]
      exact ih further

/-- The position behind the first character that a reader refuses. -/
inductive RefusedAt (limit : DepthLimit) (outermost : Nat) :
    Reader → Position → List Char → Position → Prop where
  | here {reader : Reader} {here : Position} {character : Char} {rest : List Char}
      (refused : reader.step limit outermost character here = none) :
      RefusedAt limit outermost reader here (character :: rest) (here.advance character)
  | later {reader next : Reader} {here position : Position} {character : Char} {rest : List Char}
      (stepped : reader.step limit outermost character here = some next)
      (further : RefusedAt limit outermost next (here.advance character) rest position) :
      RefusedAt limit outermost reader here (character :: rest) position

theorem refusedAt_of_run_eq_none {characters : List Char}
    (refused : reader.run limit outermost here characters = none) :
    ∃ position, RefusedAt limit outermost reader here characters position := by
  induction characters generalizing reader here with
  | nil => cases refused
  | cons character rest ih =>
      cases stepped : reader.step limit outermost character here with
      | none => exact ⟨_, .here stepped⟩
      | some next =>
          rw [run_cons_of_step stepped] at refused
          obtain ⟨position, further⟩ := ih refused
          exact ⟨position, .later stepped further⟩

theorem RefusedAt.append {characters : List Char} {position : Position}
    (refused : RefusedAt limit outermost reader here characters position) (more : List Char) :
    RefusedAt limit outermost reader here (characters ++ more) position := by
  induction refused with
  | here refused => exact .here refused
  | later stepped further ih => exact .later stepped ih

theorem refusedAt_of_run {front back : List Char} {position : Position}
    (ran : reader.run limit outermost here front = some next)
    (refused : RefusedAt limit outermost next (here.after front) back position) :
    RefusedAt limit outermost reader here (front ++ back) position := by
  induction front generalizing reader here with
  | nil =>
      cases ran
      exact refused
  | cons character front ih =>
      obtain ⟨between, stepped, further⟩ := Option.bind_eq_some_iff.mp ran
      exact .later stepped (ih further refused)

theorem RefusedAt.split {characters : List Char} {position : Position}
    (refused : RefusedAt limit outermost reader here characters position) :
    ∃ front character back last,
      characters = front ++ character :: back ∧
        reader.run limit outermost here front = some last ∧
        last.step limit outermost character (here.after front) = none ∧
        position = here.after (front ++ [character]) := by
  induction refused with
  | @here reader here character rest refused =>
      exact ⟨[], character, rest, reader, rfl, rfl, refused, rfl⟩
  | @later reader next here position character rest stepped further ih =>
      obtain ⟨front, other, back, last, rfl, ran, refused, rfl⟩ := ih
      refine ⟨character :: front, other, back, last, rfl, ?_, refused, rfl⟩
      rw [run_cons_of_step stepped]
      exact ran

end Reader

/-- A character of a text is a brace that opens a block, and what is read behind it belongs to a
level of the given number. The outermost level is the first; nameless braces open no level. -/
def OpensBlock (text : String) (index level : Nat) : Prop :=
  ∃ reader character,
    Reader.start.run .unlimited 1 .start (text.toList.take index) = some reader ∧
      text.toList[index]? = some character ∧ reader.Opens character ∧
      level = blocks reader.frames + 2

/-- Where a limited reader refuses a text that the unlimited one accepts, the first block opens
that lies too deep. -/
theorem opensBlock_of_refusedAt {limit : DepthLimit} (limited : limit ≠ .unlimited)
    {text : String} {last : Reader} {position : Position}
    (accepted : Reader.start.run .unlimited 1 .start text.toList = some last)
    (refused : Reader.start.RefusedAt limit 1 .start text.toList position) :
    ∃ index, OpensBlock text index (limit.maximum.toNat + 1) ∧
      (∀ earlier < index, ¬ OpensBlock text earlier (limit.maximum.toNat + 1)) ∧
      position = Position.start.after (text.toList.take (index + 1)) := by
  obtain ⟨front, character, back, reader, whole, ran, stopped, rfl⟩ := refused.split
  have ranUnlimited := Reader.run_unlimited_of_run ran
  have upTo : text.toList.take front.length = front := by
    rw [whole, List.take_left]
  have standing : text.toList[front.length]? = some character := by
    rw [whole, List.getElem?_append_right (Nat.le_refl _), Nat.sub_self]
    rfl
  have goesOn : ∃ next, reader.step .unlimited 1 character (Position.start.after front) =
      some next := by
    rw [whole, Reader.run_append, ranUnlimited, Option.bind_some] at accepted
    obtain ⟨next, stepped, _⟩ := Option.bind_eq_some_iff.mp accepted
    exact ⟨next, stepped⟩
  obtain ⟨next, stepped⟩ := goesOn
  obtain ⟨opens, tooDeep⟩ := Reader.opens_of_refused stopped stepped
  refine ⟨front.length, ⟨reader, character, by rw [upTo]; exact ranUnlimited, standing, opens, ?_⟩,
    ?_, ?_⟩
  · -- The level around the block lies within the limit, so the block is the next one.
    have around := Reader.allowed_of_run (limit.exceededBy_one) ran
    rw [DepthLimit.exceededBy_eq_false_iff limited] at around
    rw [DepthLimit.exceededBy_iff limited] at tooDeep
    omega
  · rintro earlier before ⟨other, brace, ranOther, standsOther, opensOther, level⟩
    rw [whole, List.take_append_of_le_length (Nat.le_of_lt before)] at ranOther
    rw [whole, List.getElem?_append_left before] at standsOther
    have part : front = front.take earlier ++ brace :: front.drop (earlier + 1) := by
      obtain ⟨bound, stands⟩ := List.getElem?_eq_some_iff.mp standsOther
      rw [← stands, ← List.drop_eq_getElem_cons, List.take_append_drop]
    -- The limited reader passes the earlier brace, which opens a block just as deep.
    rw [part, Reader.run_append] at ran
    obtain ⟨between, ranBetween, passed⟩ := Option.bind_eq_some_iff.mp ran
    obtain rfl : between = other :=
      Option.some.inj ((Reader.run_unlimited_of_run ranBetween).symm.trans ranOther)
    obtain ⟨behind, passedBrace, _⟩ := Option.bind_eq_some_iff.mp passed
    rw [Reader.step_eq_none_of_opens opensOther] at passedBrace
    · cases passedBrace
    · rw [DepthLimit.exceededBy_iff limited]
      omega
  · rw [whole, List.append_cons front character back, List.take_left' (by simp)]

end FieldQuery.Query.OnePass
