import SchedAudit.Tolerance
import SchedAudit.Proofs.Binary64.Difference

/-!
# Which values match

Two values match by their difference, or by its ratio to the larger magnitude. Turning the difference
around changes its sign only, and the larger of two magnitudes does not depend on their order; so
matching is symmetric, whatever the two doubles are (`approxEq_swap`).

Where the difference is lost, no comparison with it holds, and all that is left is whether the larger
magnitude is zero (`approxEq_of_isNaN_sub`). An infinity does not match itself for that reason. What is
not a number has no magnitude: the maximum passes over it, so it matches what is zero
(`approxEq_of_isNaN`).
-/

namespace SchedAudit.Tolerance

open Binary64

variable {a b : Float}

theorem approxEq_swap (a b : Float) : approxEq a b = approxEq b a := by
  rw [approxEq, approxEq, abs_sub_swap, larger_comm (isNegative_abs a) (isNegative_abs b)]

/-- A lost difference is within no tolerance. -/
theorem approxEq_of_isNaN_sub (h : (a - b).isNaN = true) :
    approxEq a b = (larger a.abs b.abs == 0.0) := by
  have hdifference : (a - b).abs.isNaN = true := (isNaN_abs _).trans h
  have hratio : ¬(a - b).abs / larger a.abs b.abs ≤ relative :=
    not_le_of_isNaN (.inl (isNaN_div_of_isNaN _ hdifference))
  rw [approxEq]
  dsimp only
  rw [if_neg (not_le_of_isNaN (.inl hdifference)), decide_eq_false hratio, Bool.or_false]

/-- The finite values are those that match themselves. -/
theorem approxEq_self_iff (a : Float) : approxEq a a = true ↔ a.isFinite = true := by
  refine ⟨fun hself => ?_, fun hfinite => ?_⟩
  · by_contra hinfinite
    rw [approxEq_of_isNaN_sub (isNaN_sub_self (Bool.eq_false_iff.2 hinfinite)), larger_self,
      abs_beq_zero] at hself
    exact hinfinite (isFinite_of_beq_zero hself)
  · have hle : 0.0 ≤ absolute := by decide
    rw [approxEq, abs_sub_self hfinite]
    exact if_pos hle

/-- What is not a number matches the two zeros. -/
theorem approxEq_of_isNaN (ha : a.isNaN = true) (b : Float) : approxEq a b = (b == 0.0) := by
  rw [approxEq_of_isNaN_sub (isNaN_sub_of_isNaN (.inl ha)), larger]
  cases hb : b.isNaN with
  | true =>
    rw [if_pos ((isNaN_abs b).trans hb), abs_beq_zero, beq_eq_false_of_isNaN (.inl ha),
      beq_eq_false_of_isNaN (.inl hb)]
  | false =>
    rw [if_neg (by rw [isNaN_abs, hb]; exact Bool.false_ne_true),
      if_neg (not_lt_of_isNaN (.inr ((isNaN_abs a).trans ha))), abs_beq_zero]

/-- **Matching is symmetric on all doubles, and reflexive on the finite ones**, and on no others. -/
theorem approxEq_isTolerance :
    (∀ a b, approxEq a b = approxEq b a) ∧ ∀ a, approxEq a a = true ↔ a.isFinite = true :=
  ⟨approxEq_swap, approxEq_self_iff⟩

end SchedAudit.Tolerance
