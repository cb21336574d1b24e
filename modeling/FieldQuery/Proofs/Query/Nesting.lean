import FieldQuery.Proofs.DepthLimit
import FieldQuery.Proofs.Query.LevelEntries

/-!
# How deeply selections nest

The levels of a selection set, counted from itself inwards, and the parses that a depth limit lets
pass. A limited parse gives what the unlimited one gives or stops at the limit, and it stops
exactly when the selections have more levels than the limit allows.
-/

set_option autoImplicit false

namespace FieldQuery.Query

open Fallible

/-- The number of levels of a selection set, its own included. An empty block is a level. -/
def levels : List Selection → Nat
  | [] => 1
  | .leaf _ :: rest => levels rest
  | .branch _ _ nested :: rest => max (1 + levels nested) (levels rest)

theorem levels_pos (selections : List Selection) : 0 < levels selections := by
  induction selections with
  | nil => simp [levels]
  | cons selection rest ih =>
      cases selection with
      | leaf name => simpa [levels] using ih
      | branch name arguments nested =>
          rw [levels]
          exact Nat.lt_of_lt_of_le ih (Nat.le_max_right _ _)

theorem levels_le_iff {selections : List Selection} {bound : Nat} :
    levels selections ≤ bound ↔
      1 ≤ bound ∧ ∀ name arguments nested, .branch name arguments nested ∈ selections →
        1 + levels nested ≤ bound := by
  induction selections with
  | nil => simp [levels]
  | cons selection rest ih =>
      cases selection with
      | leaf name => simp [levels, ih]
      | branch name arguments nested =>
          rw [levels, Nat.max_le, ih]
          constructor
          · rintro ⟨first, positive, later⟩
            refine ⟨positive, ?_⟩
            intro other otherArguments inner member
            rcases List.mem_cons.mp member with same | found
            · cases same
              exact first
            · exact later other otherArguments inner found
          · rintro ⟨positive, each⟩
            refine ⟨each name arguments nested List.mem_cons_self, positive, ?_⟩
            intro other otherArguments inner member
            exact each other otherArguments inner (List.mem_cons_of_mem _ member)

/-- A branch has fewer levels inside than the set around it. -/
theorem levels_lt_of_mem {selections nested : List Selection} {name : String}
    {arguments : Arguments} (member : .branch name arguments nested ∈ selections) :
    1 + levels nested ≤ levels selections :=
  (levels_le_iff.mp (Nat.le_refl _)).2 name arguments nested member

theorem readEntry_eq_branch_iff {limit : DepthLimit} {depth : Nat} {entry : Entry} {name : String}
    {arguments : Arguments} {nested : List Selection} :
    readEntry limit depth entry = .ok (.branch name arguments nested) ↔
      ∃ origin body, entry = .block name arguments origin body ∧
        parseLevel limit (depth + 1) origin body = .ok nested := by
  constructor
  · intro read
    cases entry with
    | leaf => cases read
    | block name arguments origin body =>
        obtain ⟨inner, parsed, returned⟩ := bind_eq_ok_iff.mp read
        cases returned
        exact ⟨origin, body, rfl, parsed⟩
  · rintro ⟨origin, body, rfl, parsed⟩
    exact bind_eq_ok_iff.mpr ⟨nested, parsed, rfl⟩

/-- The faults with which a parse stops at a limit. -/
def StopsAtLimit (limit : DepthLimit) (fault : ParseError) : Prop :=
  ∃ position, fault = .depthLimitExceeded limit position

theorem narrows_parseLevel (limit : DepthLimit) (depth : Nat) (origin : Position) (text : String) :
    Narrows (StopsAtLimit limit) (parseLevel limit depth origin text)
      (parseLevel .unlimited depth origin text) := by
  rw [parseLevel_eq limit, parseLevel_unlimited]
  split
  · exact .inr ⟨_, rfl, origin, rfl⟩
  · apply Narrows.bind
    · apply Narrows.mapM
      intro entry member
      cases entry with
      | leaf name => exact narrows_refl _
      | block name arguments within body =>
          apply (narrows_parseLevel limit (depth + 1) within body).bind
          intro nested
          exact narrows_refl _
    · intro selections
      exact narrows_refl _
termination_by text.length
decreasing_by exact Level.length_text_lt_of_mem_scan ‹_›

section

variable {limit : DepthLimit} (limited : limit ≠ .unlimited)
include limited

/-- What a limited parse lets pass has no level beyond the limit. -/
theorem levels_le_of_parseLevel {depth : Nat} {origin : Position} {text : String}
    {selections : List Selection} (parsed : parseLevel limit depth origin text = .ok selections) :
    depth + levels selections ≤ limit.maximum.toNat + 1 := by
  rw [parseLevel_eq] at parsed
  split at parsed
  · cases parsed
  · next allowed =>
      have within : depth ≤ limit.maximum.toNat :=
        (DepthLimit.exceededBy_eq_false_iff limited depth).mp (by simpa using allowed)
      have read := (readScan_eq_ok_iff.mp parsed).1
      have bound : levels selections ≤ limit.maximum.toNat + 1 - depth := by
        rw [levels_le_iff]
        refine ⟨by omega, ?_⟩
        intro name arguments nested member
        obtain ⟨entry, found, gave⟩ := mem_of_mapM_eq_ok read member
        obtain ⟨within, body, rfl, inner⟩ := readEntry_eq_branch_iff.mp gave
        have deeper := levels_le_of_parseLevel inner
        omega
      omega
termination_by text.length
decreasing_by exact Level.length_text_lt_of_mem_scan ‹_›

/-- A limited parse lets pass what has no level beyond the limit. -/
theorem parseLevel_of_levels_le {depth : Nat} {origin : Position} {text : String}
    {selections : List Selection}
    (parsed : parseLevel .unlimited depth origin text = .ok selections)
    (fits : depth + levels selections ≤ limit.maximum.toNat + 1) :
    parseLevel limit depth origin text = .ok selections := by
  have positive := levels_pos selections
  have allowed : limit.exceededBy depth = false :=
    (DepthLimit.exceededBy_eq_false_iff limited depth).mpr (by omega)
  rw [parseLevel_unlimited] at parsed
  obtain ⟨read, faultless⟩ := readScan_eq_ok_iff.mp parsed
  rw [parseLevel_of_allowed allowed, readScan_eq_ok_iff]
  refine ⟨mapM_eq_ok_of_mapM ?_ read, faultless⟩
  intro entry found selection member gave
  cases selection with
  | leaf name =>
      cases entry with
      | leaf => exact gave
      | block => 
          obtain ⟨nested, _, returned⟩ := bind_eq_ok_iff.mp gave
          cases returned
  | branch name arguments nested =>
      obtain ⟨within, body, rfl, inner⟩ := readEntry_eq_branch_iff.mp gave
      have fewer := levels_lt_of_mem member
      have passed := parseLevel_of_levels_le inner (by omega)
      exact readEntry_eq_branch_iff.mpr ⟨within, body, rfl, passed⟩
termination_by text.length
decreasing_by exact Level.length_text_lt_of_mem_scan ‹_›

/-- A parse passes a limit exactly when it gives no level beyond it. -/
theorem parse_eq_ok_iff_of_limited {text : String} {selections : List Selection} :
    parse limit text = .ok selections ↔
      parse .unlimited text = .ok selections ∧ levels selections ≤ limit.maximum.toNat := by
  constructor
  · intro passed
    have bound := levels_le_of_parseLevel limited passed
    rcases narrows_parseLevel limit 1 .start text with same | ⟨fault, stopped, _⟩
    · exact ⟨same.symm.trans passed, by omega⟩
    · cases stopped.symm.trans passed
  · rintro ⟨parsed, bound⟩
    exact parseLevel_of_levels_le limited parsed (by omega)

end

end FieldQuery.Query
