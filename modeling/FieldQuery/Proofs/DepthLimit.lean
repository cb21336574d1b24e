import FieldQuery.DepthLimit

/-!
# Laws of depth limits

The outermost depth is always allowed, and what a limit allows is allowed by every greater limit
and without a limit.
-/

set_option autoImplicit false

namespace FieldQuery.DepthLimit

theorem maximum_pos {limit : DepthLimit} (limited : limit ≠ unlimited) :
    0 < limit.maximum.toNat := by
  apply Nat.pos_of_ne_zero
  intro zero
  apply limited
  obtain ⟨maximum⟩ := limit
  exact congrArg DepthLimit.mk (UInt64.toNat_inj.mp zero)

theorem exceededBy_eq_false_iff {limit : DepthLimit} (limited : limit ≠ unlimited) (depth : Nat) :
    limit.exceededBy depth = false ↔ depth ≤ limit.maximum.toNat := by
  rw [← Bool.not_eq_true, exceededBy_iff limited, Nat.not_lt]

/-- No limit keeps out the outermost level. -/
theorem exceededBy_one (limit : DepthLimit) : limit.exceededBy 1 = false := by
  by_cases limited : limit = unlimited
  · rw [limited]
    exact unlimited_exceededBy 1
  · rw [exceededBy_eq_false_iff limited]
    exact maximum_pos limited

theorem exceededBy_eq_false_of_le {limit : DepthLimit} {depth deeper : Nat} (le : depth ≤ deeper)
    (allowed : limit.exceededBy deeper = false) : limit.exceededBy depth = false := by
  by_cases limited : limit = unlimited
  · rw [limited]
    exact unlimited_exceededBy depth
  · rw [exceededBy_eq_false_iff limited] at allowed ⊢
    exact Nat.le_trans le allowed

def Wider (limit wider : DepthLimit) : Prop :=
  ∀ depth, limit.exceededBy depth = false → wider.exceededBy depth = false

theorem wider_unlimited (limit : DepthLimit) : Wider limit unlimited :=
  fun depth _ => unlimited_exceededBy depth

theorem wider_of_le {limit wider : DepthLimit} (limited : limit ≠ unlimited)
    (le : limit.maximum ≤ wider.maximum) : Wider limit wider := by
  intro depth allowed
  have within : depth ≤ wider.maximum.toNat :=
    Nat.le_trans ((exceededBy_eq_false_iff limited depth).mp allowed)
      (UInt64.le_iff_toNat_le.mp le)
  rw [exceededBy, Bool.and_eq_false_iff, decide_eq_false_iff_not]
  exact .inr (Nat.not_lt.mpr within)

end FieldQuery.DepthLimit
