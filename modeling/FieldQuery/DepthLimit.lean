/-!
# Depth limits

A limit on how deeply selection sets may nest. The outermost set has depth one, and a limit of
zero allows every depth.
-/

set_option autoImplicit false

namespace FieldQuery

/-- The greatest depth allowed, or zero for no limit. -/
structure DepthLimit where
  maximum : UInt64
  deriving DecidableEq

namespace DepthLimit

def unlimited : DepthLimit := ⟨0⟩

instance : Inhabited DepthLimit := ⟨unlimited⟩

def exceededBy (limit : DepthLimit) (depth : Nat) : Bool :=
  limit.maximum != 0 && decide (limit.maximum.toNat < depth)

@[simp] theorem unlimited_exceededBy (depth : Nat) : unlimited.exceededBy depth = false := rfl

/-- A limit other than zero is exceeded by exactly the greater depths. -/
theorem exceededBy_iff {limit : DepthLimit} (limited : limit ≠ unlimited) (depth : Nat) :
    limit.exceededBy depth = true ↔ limit.maximum.toNat < depth := by
  have nonzero : limit.maximum ≠ 0 := fun zero => limited (by cases limit; simp_all [unlimited])
  simp [exceededBy, nonzero]

end DepthLimit

end FieldQuery
