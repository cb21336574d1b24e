import FieldQuery.Proofs.Fallible
import FieldQuery.Query.Parse

/-!
# What the entries of a level give

A level is read by scanning it and then taking its entries in order, each block one level deeper.
These equations say what one entry adds to the outcome.
-/

set_option autoImplicit false

namespace FieldQuery.Query

open Fallible

def readEntry (limit : DepthLimit) (depth : Nat) : Entry → Except ParseError Selection
  | .leaf name => .ok (.leaf name)
  | .block name arguments origin body => do
      let nested ← parseLevel limit (depth + 1) origin body
      return .branch name arguments nested

def readScan (limit : DepthLimit) (depth : Nat) (scan : Level.Scan) :
    Except ParseError (List Selection) := do
  let selections ← scan.entries.mapM (readEntry limit depth)
  match scan.fault with
  | none => return selections
  | some fault => throw fault

theorem parseLevel_eq (limit : DepthLimit) (depth : Nat) (origin : Position) (text : String) :
    parseLevel limit depth origin text =
      if limit.exceededBy depth then .error (.depthLimitExceeded limit origin)
      else readScan limit depth (Level.start.scan origin text.toList) := by
  rw [parseLevel]
  split
  · rfl
  · simp only [readScan]
    congr 1
    rw [List.mapM_subtype (g := readEntry limit depth), List.unattach_attach]
    intro entry member
    cases entry <;> rfl

theorem parseLevel_of_allowed {limit : DepthLimit} {depth : Nat}
    (allowed : limit.exceededBy depth = false) (origin : Position) (text : String) :
    parseLevel limit depth origin text =
      readScan limit depth (Level.start.scan origin text.toList) := by
  rw [parseLevel_eq, allowed, if_neg Bool.false_ne_true]

theorem parseLevel_unlimited (depth : Nat) (origin : Position) (text : String) :
    parseLevel .unlimited depth origin text =
      readScan .unlimited depth (Level.start.scan origin text.toList) :=
  parseLevel_of_allowed (DepthLimit.unlimited_exceededBy depth) origin text

theorem readScan_prepend (limit : DepthLimit) (depth : Nat) (entry : Entry)
    (scan : Level.Scan) :
    readScan limit depth (.prepend (some entry) scan) = do
      let selection ← readEntry limit depth entry
      let selections ← readScan limit depth scan
      return selection :: selections := by
  obtain ⟨entries, fault⟩ := scan
  simp only [readScan, Level.Scan.prepend, List.mapM_cons]
  cases readEntry limit depth entry with
  | error => rfl
  | ok selection =>
      cases entries.mapM (readEntry limit depth) with
      | error => rfl
      | ok selections => cases fault <;> rfl

theorem toOption_readScan_prepend (limit : DepthLimit) (depth : Nat) (entry : Entry)
    (scan : Level.Scan) :
    (readScan limit depth (.prepend (some entry) scan)).toOption =
      (readEntry limit depth entry).toOption.bind fun selection =>
        (readScan limit depth scan).toOption.map (selection :: ·) := by
  rw [readScan_prepend]
  cases readEntry limit depth entry with
  | error => rfl
  | ok selection => cases readScan limit depth scan <;> rfl

/-- A scan reads successfully exactly when its entries do and nothing is wrong behind them. -/
theorem readScan_eq_ok_iff {limit : DepthLimit} {depth : Nat} {scan : Level.Scan}
    {selections : List Selection} :
    readScan limit depth scan = .ok selections ↔
      scan.entries.mapM (readEntry limit depth) = .ok selections ∧ scan.fault = none := by
  obtain ⟨entries, fault⟩ := scan
  rw [readScan, bind_eq_ok_iff]
  constructor
  · rintro ⟨read, done, returned⟩
    cases fault with
    | some fault => cases returned
    | none =>
        cases returned
        exact ⟨done, rfl⟩
  · rintro ⟨done, rfl⟩
    exact ⟨selections, done, rfl⟩

end FieldQuery.Query
