import FieldQuery.Proofs.Execution.DepthAgreement

/-!
# What depth limits measure

The depth of a selection does not count the level of an empty block, but the depth limits do, of
parsing and of execution alike. So a limit is kept by a selection set exactly when its selections
keep it in a depth that counts empty blocks. The two depths differ by at most one level.
-/

set_option autoImplicit false

namespace FieldQuery.Query

namespace Selection

mutual

/-- The number of levels of a selection, its own and that of every block included. -/
def blockDepth : Selection → Nat
  | .leaf _ => 1
  | .branch _ _ selections => 1 + greatestBlockDepth selections

/-- The greatest such depth in a block, one if the block is empty. -/
def greatestBlockDepth : List Selection → Nat
  | [] => 1
  | selection :: rest => max selection.blockDepth (greatestBlockDepth rest)

end

/-- No block in the selection is empty. -/
inductive Filled : Selection → Prop where
  | leaf {name : String} : Filled (.leaf name)
  | branch {name : String} {arguments : Arguments} {selections : List Selection}
      (nonempty : selections ≠ []) (each : ∀ selection ∈ selections, Filled selection) :
      Filled (.branch name arguments selections)

theorem blockDepth_pos (selection : Selection) : 0 < selection.blockDepth := by
  cases selection with
  | leaf name => exact Nat.one_pos
  | branch name arguments selections =>
      rw [blockDepth]
      omega

theorem greatestBlockDepth_le_iff {selections : List Selection} {bound : Nat} :
    greatestBlockDepth selections ≤ bound ↔
      1 ≤ bound ∧ ∀ selection ∈ selections, selection.blockDepth ≤ bound := by
  induction selections with
  | nil => simp [greatestBlockDepth]
  | cons selection rest ih =>
      rw [greatestBlockDepth, Nat.max_le, ih, List.forall_mem_cons]
      constructor
      · rintro ⟨first, positive, later⟩
        exact ⟨positive, first, later⟩
      · rintro ⟨positive, first, later⟩
        exact ⟨first, positive, later⟩

mutual

theorem depth_le_blockDepth (selection : Selection) :
    selection.depth ≤ selection.blockDepth ∧ selection.blockDepth ≤ selection.depth + 1 := by
  match selection with
  | .leaf name => exact ⟨Nat.le_refl _, Nat.le_succ _⟩
  | .branch name arguments selections =>
      have inside := greatestDepth_le_greatestBlockDepth selections
      rw [depth, blockDepth]
      omega

theorem greatestDepth_le_greatestBlockDepth (selections : List Selection) :
    greatestDepth selections ≤ greatestBlockDepth selections ∧
      greatestBlockDepth selections ≤ greatestDepth selections + 1 := by
  match selections with
  | [] => exact ⟨Nat.zero_le _, Nat.le_refl _⟩
  | selection :: rest =>
      have first := depth_le_blockDepth selection
      have later := greatestDepth_le_greatestBlockDepth rest
      rw [greatestDepth, greatestBlockDepth]
      omega

end

theorem greatestBlockDepth_eq_greatestDepth {selections : List Selection}
    (nonempty : selections ≠ [])
    (each : ∀ selection ∈ selections, selection.blockDepth = selection.depth) :
    greatestBlockDepth selections = greatestDepth selections := by
  induction selections with
  | nil => exact absurd rfl nonempty
  | cons selection rest ih =>
      obtain ⟨first, later⟩ := List.forall_mem_cons.mp each
      rw [greatestBlockDepth, greatestDepth, first]
      cases rest with
      | nil =>
          -- The level that an empty rest would count is that of the selection itself.
          have positive := blockDepth_pos selection
          rw [greatestBlockDepth, greatestDepth]
          omega
      | cons other others => rw [ih (List.cons_ne_nil _ _) later]

theorem Filled.blockDepth_eq {selection : Selection} (filled : selection.Filled) :
    selection.blockDepth = selection.depth := by
  induction filled with
  | leaf => rw [blockDepth, depth]
  | branch nonempty _ ih =>
      rw [blockDepth, depth, greatestBlockDepth_eq_greatestDepth nonempty ih]

end Selection

theorem levels_eq_greatestBlockDepth (selections : List Selection) :
    levels selections = Selection.greatestBlockDepth selections := by
  match selections with
  | [] => rw [levels, Selection.greatestBlockDepth]
  | .leaf name :: rest =>
      have positive := levels_pos rest
      rw [levels, Selection.greatestBlockDepth, Selection.blockDepth,
        ← levels_eq_greatestBlockDepth rest]
      omega
  | .branch name arguments nested :: rest =>
      rw [levels, Selection.greatestBlockDepth, Selection.blockDepth,
        levels_eq_greatestBlockDepth nested, levels_eq_greatestBlockDepth rest]

theorem levels_le_iff_blockDepth {limit : DepthLimit} (limited : limit ≠ .unlimited)
    (selections : List Selection) :
    levels selections ≤ limit.maximum.toNat ↔
      ∀ selection ∈ selections, selection.blockDepth ≤ limit.maximum.toNat := by
  rw [levels_eq_greatestBlockDepth, Selection.greatestBlockDepth_le_iff]
  exact and_iff_right (DepthLimit.maximum_pos limited)

end FieldQuery.Query

namespace FieldQuery.Execution

open Query

def emptyBlockText : String := "children\x7b\x7d"

/-- The depth without empty blocks is not what the limits measure. A branch of depth one whose block
is empty goes past a limit of one, when it is parsed and when it is executed. -/
theorem limits_refuse_emptyBlockText :
    let selections : List Selection := [.branch "children" .empty []]
    parse .unlimited emptyBlockText = .ok selections ∧
      (∀ selection ∈ selections, selection.depth ≤ 1) ∧
      parse ⟨1⟩ emptyBlockText = .error (.depthLimitExceeded ⟨1⟩ ⟨1, 10⟩) ∧
      Trips ((execute Sample.tree ⟨1⟩ selections grandparentVertex).outcome .empty).1 := by
  intro selections
  have scanned : Level.start.scan .start emptyBlockText.toList =
      ⟨[.block "children" .empty ⟨1, 10⟩ ""], none⟩ := by decide +kernel
  refine ⟨?_, by simp [selections, Selection.depth, Selection.greatestDepth], ?_,
    ⟨1⟩, ["children"], rfl⟩
  · rw [← Fallible.toOption_eq_some_iff, toOption_parse]
    decide +kernel
  · rw [parse, parseLevel_of_allowed rfl, scanned]
    simp only [readScan, List.mapM_cons, readEntry]
    rw [parseLevel_eq]
    rfl

/-- Both limits measure the depth that counts every block. A limited parse lets a text pass exactly
when its selections keep the limit in that depth, and selections that keep it are executed without
stopping at it, on any graph. That depth is at most one more than the depth without empty blocks,
and equal to it where no block is empty. -/
theorem limits_measure_blockDepth {limit : DepthLimit} (limited : limit ≠ .unlimited) :
    (∀ text selections, parse .unlimited text = .ok selections →
      ((∃ passed, parse limit text = .ok passed) ↔
        ∀ selection ∈ selections, selection.blockDepth ≤ limit.maximum.toNat)) ∧
    (∀ selections : List Selection,
      (∀ selection ∈ selections, selection.blockDepth ≤ limit.maximum.toNat) →
      ∀ {State Node : Type} (graph : DataGraph State Node) (root : Node) (before : State),
        ¬ Trips ((execute graph limit selections root).outcome before).1) ∧
    ∀ selection : Selection,
      selection.depth ≤ selection.blockDepth ∧ selection.blockDepth ≤ selection.depth + 1 ∧
        (selection.Filled → selection.blockDepth = selection.depth) := by
  refine ⟨?_, ?_, ?_⟩
  · intro text selections parsed
    rw [← levels_le_iff_blockDepth limited]
    constructor
    · rintro ⟨passed, accepted⟩
      obtain ⟨unlimited, fits⟩ := (parse_eq_ok_iff_of_limited limited).mp accepted
      cases parsed.symm.trans unlimited
      exact fits
    · intro fits
      exact ⟨selections, (parse_eq_ok_iff_of_limited limited).mpr ⟨parsed, fits⟩⟩
  · intro selections fits State Node graph root before
    apply not_trips_of_allowed
    rw [DepthLimit.exceededBy_eq_false_iff limited]
    exact (levels_le_iff_blockDepth limited selections).mpr fits
  · intro selection
    obtain ⟨least, greatest⟩ := selection.depth_le_blockDepth
    exact ⟨least, greatest, Selection.Filled.blockDepth_eq⟩

theorem limits_measure_nestedText :
    let text := "children \x7b name, pick \x7b\x7d \x7d"
    let selections : List Selection :=
      [.branch "children" .empty [.leaf "name", .branch "pick" .empty []]]
    (∃ passed, parse ⟨3⟩ text = .ok passed) ∧ (¬ ∃ passed, parse ⟨2⟩ text = .ok passed) ∧
      (∀ selection ∈ selections, selection.depth = 2 ∧ selection.blockDepth = 3) ∧
      ¬ Trips ((execute Sample.tree ⟨3⟩ selections grandparentVertex).outcome .empty).1 := by
  intro text selections
  have three : (⟨3⟩ : DepthLimit) ≠ .unlimited := by decide
  have two : (⟨2⟩ : DepthLimit) ≠ .unlimited := by decide
  have parsed : parse .unlimited text = .ok selections := by
    rw [← Fallible.toOption_eq_some_iff, toOption_parse]
    decide +kernel
  have depths : ∀ selection ∈ selections, selection.depth = 2 ∧ selection.blockDepth = 3 := by
    simp [selections, Selection.depth, Selection.greatestDepth, Selection.blockDepth,
      Selection.greatestBlockDepth]
  have fits : ∀ selection ∈ selections,
      selection.blockDepth ≤ (⟨3⟩ : DepthLimit).maximum.toNat :=
    fun selection member => Nat.le_of_eq (depths selection member).2
  obtain ⟨passes, executes, _⟩ := limits_measure_blockDepth three
  refine ⟨(passes text selections parsed).mpr fits, ?_, depths,
    executes selections fits Sample.tree grandparentVertex .empty⟩
  rw [(limits_measure_blockDepth two).1 text selections parsed]
  intro kept
  have tooDeep := kept _ List.mem_cons_self
  rw [(depths _ List.mem_cons_self).2] at tooDeep
  exact absurd tooDeep (by decide)

end FieldQuery.Execution
