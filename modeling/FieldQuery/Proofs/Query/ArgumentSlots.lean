import FieldQuery.Proofs.Query.ArgumentListReading

/-!
# Slots of argument lists

Between two commas an argument list changes nothing but its slot. A comma or the closing
parenthesis accepts a slot only if it is complete, and then it adds the pair that the slot holds.
-/

set_option autoImplicit false

namespace FieldQuery.Query

open Fallible

inductive Slot.Holds : Slot → Option (String × ArgumentValue) → Prop where
  | nothing {ended : Bool} : Holds (.key "" ended) none
  | integer {key token : String} {spaced : Bool} {value : Int}
      (numeral : Text.Numeral token.toList value) (fits : Numeric.InInt64 value) :
      Holds (.bare key token spaced) (some (key, .integer (Int64.ofInt value)))
  | text {key text : String} : Holds (.quoted key text .outside) (some (key, .text text))

/-- Arguments grow by the pairs of slots, each under a new key. -/
inductive Adds : Arguments → List (Option (String × ArgumentValue)) → Arguments → Prop where
  | nil {arguments : Arguments} : Adds arguments [] arguments
  | nothing {before after : Arguments} {contents : List (Option (String × ArgumentValue))}
      (rest : Adds before contents after) : Adds before (none :: contents) after
  | pair {before after : Arguments} {key : String} {value : ArgumentValue}
      {contents : List (Option (String × ArgumentValue))} (fresh : before.contains key = false)
      (rest : Adds (before.insert key value) contents after) :
      Adds before (some (key, value) :: contents) after

section

variable {before after : Arguments} {key : String} {value : ArgumentValue}
  {content : Option (String × ArgumentValue)} {contents : List (Option (String × ArgumentValue))}

theorem adds_nothing_iff : Adds before (none :: contents) after ↔ Adds before contents after := by
  constructor
  · intro adds
    cases adds with
    | nothing rest => exact rest
  · exact .nothing

theorem adds_pair_iff :
    Adds before (some (key, value) :: contents) after ↔
      before.get? key = none ∧ Adds (before.insert key value) contents after := by
  rw [← Dict.contains_eq_false_iff]
  constructor
  · intro adds
    cases adds with
    | pair fresh rest => exact ⟨fresh, rest⟩
  · intro grows
    exact .pair grows.1 grows.2

theorem adds_cons_iff :
    Adds before (content :: contents) after ↔
      ∃ between, Adds before [content] between ∧ Adds between contents after := by
  constructor
  · intro adds
    cases adds with
    | nothing rest => exact ⟨before, .nothing .nil, rest⟩
    | pair fresh rest => exact ⟨_, .pair fresh .nil, rest⟩
  · intro adds
    obtain ⟨between, first, rest⟩ := adds
    cases first with
    | nothing none =>
        cases none
        exact .nothing rest
    | pair fresh none =>
        cases none
        exact .pair fresh rest

def keysOf (contents : List (Option (String × ArgumentValue))) : List String :=
  contents.filterMap (Option.map Prod.fst)

theorem keysOf_pair : keysOf (some (key, value) :: contents) = key :: keysOf contents := rfl

/-- Adding pairs means that their keys are new and distinct and that nothing else changes. -/
theorem adds_iff :
    Adds before contents after ↔
      (keysOf contents).Nodup ∧ (∀ key ∈ keysOf contents, before.get? key = none) ∧
        ∀ key value, after.get? key = some value ↔
          before.get? key = some value ∨ some (key, value) ∈ contents := by
  induction contents generalizing before with
  | nil =>
      constructor
      · intro adds
        cases adds
        simp [keysOf]
      · intro held
        obtain rfl : after = before := by
          apply Dict.ext_get?
          intro key
          apply Option.ext
          intro value
          simpa using held.2.2 key value
        exact .nil
  | cons content contents ih =>
      cases content with
      | none =>
          rw [adds_nothing_iff, ih]
          simp [keysOf]
      | some pair =>
          obtain ⟨key, value⟩ := pair
          have unused : (∀ other ∈ keysOf contents, (before.insert key value).get? other = none) ↔
              key ∉ keysOf contents ∧ ∀ other ∈ keysOf contents, before.get? other = none := by
            simp only [Dict.get?_insert_eq_none_iff]
            constructor
            · intro each
              exact ⟨fun member => (each key member).1 rfl, fun other member => (each other member).2⟩
            · intro both other member
              exact ⟨fun same => both.1 (same ▸ member), both.2 other member⟩
          have held (fresh : before.get? key = none) (other : String) (found : ArgumentValue) :
              (before.insert key value).get? other = some found ∨ some (other, found) ∈ contents ↔
                before.get? other = some found ∨
                  some (other, found) ∈ some (key, value) :: contents := by
            rw [Dict.get?_insert_eq_some_iff fresh, List.mem_cons, or_assoc]
            simp
          rw [adds_pair_iff, ih, keysOf_pair, List.nodup_cons, List.forall_mem_cons, unused]
          constructor
          · intro grows
            obtain ⟨fresh, distinct, ⟨new, others⟩, same⟩ := grows
            simp only [held fresh] at same
            exact ⟨⟨new, distinct⟩, ⟨fresh, others⟩, same⟩
          · intro grows
            obtain ⟨⟨new, distinct⟩, ⟨fresh, others⟩, same⟩ := grows
            simp only [← held fresh] at same
            exact ⟨fresh, distinct, ⟨new, others⟩, same⟩

end

/-! ## Steps -/

inductive Slot.Moves : Slot → Char → Slot → Prop where
  | blank {slot : Slot} {character : Char} (outside : slot.surroundings = .arguments)
      (blank : Text.isBlank character = true) : Moves slot character (ArgumentList.blank slot)
  | write {slot next : Slot} {character : Char} {here : Position}
      (outside : slot.surroundings = .arguments)
      (written : ArgumentList.write slot character here = .ok next) : Moves slot character next
  | plain {key text : String} {character : Char} (notQuote : character ≠ '"')
      (notBackslash : character ≠ '\\') :
      Moves (.quoted key text .inside) character (.quoted key (text.push character) .inside)
  | close {key text : String} : Moves (.quoted key text .inside) '"' (.quoted key text .outside)
  | escape {key text : String} : Moves (.quoted key text .inside) '\\' (.quoted key text .escaped)
  | unescape {key text : String} {character : Char} :
      Moves (.quoted key text .escaped) character
        (.quoted key (text.push (ArgumentList.unescape character)) .inside)

namespace ArgumentList

variable {openedAt here : Position} {before after : Arguments} {slot : Slot} {character : Char}

theorem add_eq_ok_iff {key : String} {value : ArgumentValue} :
    add before key value here = .ok after ↔ Adds before [some (key, value)] after := by
  rw [add]
  constructor
  · intro added
    split at added
    · cases added
    · next fresh =>
        cases added
        exact .pair (Bool.not_eq_true _ ▸ fresh) .nil
  · intro adds
    cases adds with
    | pair fresh rest =>
        cases rest
        rw [fresh]
        rfl

theorem commit_eq_ok_iff (outside : slot.surroundings = .arguments) :
    commit before slot here = .ok after ↔
      ∃ content, slot.Holds content ∧ Adds before [content] after := by
  cases slot with
  | key name ended =>
      rw [commit]
      constructor
      · intro committed
        split at committed
        · next empty =>
            cases committed
            obtain rfl := String.isEmpty_iff.mp empty
            exact ⟨none, .nothing, .nothing .nil⟩
        · cases committed
      · intro complete
        obtain ⟨content, holds, adds⟩ := complete
        cases holds
        cases adds with
        | nothing rest =>
            cases rest
            rfl
  | bare key token gap =>
      rw [commit]
      constructor
      · intro committed
        split at committed
        · cases committed
        split at committed
        · next word read =>
            obtain ⟨value, numeral, fits, rfl⟩ := Text.int64?_eq_some_iff.mp read
            exact ⟨_, .integer numeral fits, add_eq_ok_iff.mp committed⟩
        · cases committed
      · intro complete
        obtain ⟨content, holds, adds⟩ := complete
        cases holds with
        | integer numeral fits =>
            have nonempty : ¬ token.isEmpty = true := by
              intro empty
              obtain rfl := String.isEmpty_iff.mp empty
              exact numeral.ne_nil rfl
            rw [if_neg nonempty, Text.int64?_eq_some_iff.mpr ⟨_, numeral, fits, rfl⟩]
            exact add_eq_ok_iff.mpr adds
  | quoted key text quotation =>
      rw [commit, add_eq_ok_iff]
      constructor
      · intro adds
        cases quotation with
        | outside => exact ⟨_, .text, adds⟩
        | inside | escaped => cases outside
      · intro complete
        obtain ⟨content, holds, adds⟩ := complete
        cases holds
        exact adds

/-- The steps that leave a list open: a comma completes the slot, and every other character goes
into it. -/
theorem step_waiting_cases {next : ArgumentList}
    (stepped : step ⟨openedAt, before, slot⟩ character here = .ok (.waiting next)) :
    character ≠ '\n' ∧
      ((character = ',' ∧ slot.surroundings = .arguments ∧ ∃ content arguments,
          slot.Holds content ∧ Adds before [content] arguments ∧
          next = ⟨openedAt, arguments, .empty⟩) ∨
        ∃ moved, slot.Moves character moved ∧ next = ⟨openedAt, before, moved⟩) := by
  have notNewline : character ≠ '\n' := (surroundings_step stepped).1
  refine ⟨notNewline, ?_⟩
  by_cases outside : slot.surroundings = .arguments
  · rw [step_eq_stepOutside here notNewline outside, stepOutside] at stepped
    split at stepped
    · obtain ⟨_, _, closed⟩ := bind_eq_ok_iff.mp stepped
      cases closed
    split at stepped
    · next comma =>
        obtain ⟨arguments, committed, waiting⟩ := bind_eq_ok_iff.mp stepped
        cases waiting
        obtain ⟨content, holds, adds⟩ := (commit_eq_ok_iff outside).mp committed
        exact .inl ⟨comma, outside, content, arguments, holds, adds, rfl⟩
    split at stepped
    · next blank =>
        cases stepped
        exact .inr ⟨_, .blank outside blank, rfl⟩
    · obtain ⟨moved, written, waiting⟩ := bind_eq_ok_iff.mp stepped
      cases waiting
      exact .inr ⟨moved, .write outside written, rfl⟩
  · right
    rw [step, if_neg notNewline] at stepped
    split at stepped
    · next key text inside =>
        have inside : slot = .quoted key text .inside := inside
        subst inside
        cases stepped
        split
        · next backslash =>
            subst backslash
            exact ⟨_, .escape, rfl⟩
        split
        · next quote =>
            subst quote
            exact ⟨_, .close, rfl⟩
        · next notBackslash notQuote => exact ⟨_, .plain notQuote notBackslash, rfl⟩
    · next key text escaped =>
        have escaped : slot = .quoted key text .escaped := escaped
        subst escaped
        cases stepped
        exact ⟨_, .unescape, rfl⟩
    · next notInside notEscaped =>
        cases slot with
        | key | bare => exact absurd rfl outside
        | quoted key text quotation =>
            cases quotation with
            | outside => exact absurd rfl outside
            | inside => exact absurd rfl (notInside key text)
            | escaped => exact absurd rfl (notEscaped key text)

theorem step_closed_iff :
    step ⟨openedAt, before, slot⟩ ')' here = .ok (.closed after) ↔
      slot.surroundings = .arguments ∧ ∃ content, slot.Holds content ∧
        Adds before [content] after := by
  have closing (outside : slot.surroundings = .arguments) :
      step ⟨openedAt, before, slot⟩ ')' here = .ok (.closed after) ↔
        commit before slot here = .ok after := by
    rw [step_eq_stepOutside here (by decide) outside, stepOutside, if_pos rfl, bind_eq_ok_iff]
    constructor
    · intro closed
      obtain ⟨arguments, committed, returned⟩ := closed
      cases returned
      exact committed
    · intro committed
      exact ⟨after, committed, rfl⟩
  constructor
  · intro closed
    have outside : slot.surroundings = .arguments := by
      have after := (surroundings_step closed).2
      simp only [surroundingsAfter] at after
      cases surroundings : slot.surroundings with
      | arguments => rfl
      | plain => exact absurd surroundings slot.surroundings_ne_plain
      | comment | quoted | escaped =>
          rw [surroundings] at after
          cases after
    exact ⟨outside, (commit_eq_ok_iff outside).mp ((closing outside).mp closed)⟩
  · intro complete
    obtain ⟨outside, complete⟩ := complete
    exact (closing outside).mpr ((commit_eq_ok_iff outside).mpr complete)

end ArgumentList

end FieldQuery.Query
