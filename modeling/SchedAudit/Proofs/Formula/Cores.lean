import Mathlib
import SchedAudit.Formula
import SchedAudit.Proofs.Binary64.Difference
import SchedAudit.Proofs.Decimal.Nearest

/-!
# How many cores stay awake

The cores that CSF keeps awake are a quotient of differences, rounded up. Its denominator `1 - u_max` may
be as small as the distance from one to the double before it, or as large as the largest double, and the
quotient may be an infinity; but it is a number, since no finite utilization below one makes the
denominator zero or infinite (`isPositive_one_sub`). So whatever is not at most one is rounded up to one
core or more (`one_le_ceilingUpTo`), and the frequency is never divided by no cores
(`activeCores_inRange`).
-/

namespace SchedAudit

namespace Binary64

variable {x : Float}

/-! ## One minus a utilization -/

theorem isPositive_one : IsPositive 1.0 := isPositive_of_lt (by decide) (by decide)

theorem value_one : value 1.0 = 1 := by
  have h := Value.toRat_of_isNatural (n := 1) (v := classify 1.0) (by decide +kernel)
  rwa [Nat.cast_one] at h

/-- The distance to one is above zero for any finite number below one, and finite. -/
theorem isPositive_one_sub (hx : x.isFinite = true) (hlt : x < 1.0) : IsPositive (1.0 - x) := by
  have hnum := isNaN_of_isFinite hx
  refine isPositive_one.sub hx (value_lt_of_lt hnum (by decide) hlt) ?_
  have hlast : scale (magnitude x) ≤ scale (infinityMagnitude - 1) :=
    strictMono_scale.monotone (Nat.le_sub_one_of_lt (finite_cases hx).1)
  have hlow : -scale (magnitude x) ≤ value x := by
    have hnonneg := scale_nonneg (magnitude x)
    rw [value_eq hnum]
    split_ifs <;> linarith
  have hgap : scale (infinityMagnitude - 1) + 2 ^ ((1076 : ℕ) - 1074 : ℤ) ≤ scale infinityMagnitude :=
    scale_add_zpow_le (by decide) (by decide)
  have hfour : (2 : ℚ) ^ ((1076 : ℕ) - 1074 : ℤ) = 4 := by norm_num
  rw [value_one]
  linarith

/-! ## Rounding up -/

theorem ceilingUpTo_le (bound : ℕ) (x : Float) : ceilingUpTo bound x ≤ bound := by
  unfold ceilingUpTo
  split
  · exact Nat.zero_le _
  · split_ifs
    · exact Nat.zero_le _
    · exact le_rfl
  · exact Nat.zero_le _
  · split_ifs
    · exact min_le_right ..
    · exact min_le_right ..

/-- What is above zero is rounded up to one or more, unless the bound is below one. -/
theorem one_le_ceilingUpTo {bound : ℕ} (hbound : 1 ≤ bound) (hpos : 0 < value x) :
    1 ≤ ceilingUpTo bound x := by
  unfold ceilingUpTo
  rw [value] at hpos
  cases hx : classify x with
  | nan =>
    rw [hx] at hpos
    exact absurd hpos (lt_irrefl 0)
  | infinite negative =>
    cases negative with
    | true =>
      rw [hx, Value.toRat, if_pos rfl] at hpos
      exact absurd hpos (not_lt.2 (neg_nonpos.2 (two_zpow_pos 1024).le))
    | false => exact hbound
  | finite negative m e =>
    have hnonneg : (0 : ℚ) ≤ m * 2 ^ e := mul_nonneg (Nat.cast_nonneg m) (two_zpow_pos e).le
    rw [hx, toRat_finite] at hpos
    cases negative with
    | true =>
      rw [if_pos rfl] at hpos
      linarith
    | false =>
      have hm : 0 < m := Nat.pos_of_ne_zero fun hzero => by simp [hzero] at hpos
      dsimp only
      split_ifs with he
      · exact le_min (Nat.mul_pos hm (Nat.two_pow_pos _)) hbound
      · have hunit : 0 < Nat.pow 2 (-e).toNat := Nat.two_pow_pos _
        refine le_min ((Nat.le_div_iff_mul_le hunit).2 ?_) hbound
        omega

/-- A number that is not at most one is above zero. -/
theorem value_pos_of_not_le_one (hx : x.isNaN = false) (h : ¬x ≤ 1.0) : 0 < value x := by
  have hone : (1.0 : Float).isNaN = false := by decide
  exact zero_lt_one.trans (value_one ▸ value_lt_of_lt hone hx (lt_of_not_le hx hone h))

/-- A natural number that is not zero is converted to a double above zero. -/
theorem zero_lt_ofNat {n : ℕ} (hn : 1 ≤ n) : 0.0 < Float.ofNat n := by
  have hzero : IsUnsigned 0.0 := ⟨by decide, by decide⟩
  have hunsigned : IsUnsigned (Float.ofNat n) := isUnsigned_ofScientific n false 0
  have hnearest : IsNearest (Float.ofNat n) (n * 10 ^ (0 : ℤ)) :=
    isNearest_ofScientific (e := 0) hn (by decide) (by omega)
  obtain ⟨k, hk, hscale⟩ := exists_scale_eq (n := 1) (e := 0) (by norm_num) (Nat.zero_le _)
  rw [zpow_zero, mul_one] at hnearest
  rw [Nat.cast_zero, neg_zero, zpow_zero, mul_one] at hscale
  have hle : k ≤ magnitude (Float.ofNat n) :=
    (hnearest.nearestPlace hunsigned).le_of_scale_le hk.le (by rw [hscale]; exact_mod_cast hn)
  have hpos : 0 < k := Nat.pos_of_ne_zero fun h => by
    rw [h, scale_zero, Nat.cast_one] at hscale
    exact zero_ne_one hscale
  have hkey : orderKey 0.0 = 0 := by decide +kernel
  rw [hzero.lt_iff_orderKey_lt hunsigned, hkey, orderKey, hunsigned.isNegative,
    if_neg Bool.false_ne_true]
  omega

end Binary64

namespace Formula

open Binary64

variable {total uMax : Float} {processors : ℕ}

theorem activeCores_le (h : 1 ≤ processors) : activeCores total uMax processors ≤ processors := by
  rw [activeCores]
  split_ifs
  · exact le_rfl
  · dsimp only
    split_ifs
    · exact h
    · exact ceilingUpTo_le ..

theorem one_le_activeCores (h : 1 ≤ processors) (htotal : total.isFinite = true)
    (huMax : uMax.isFinite = true) : 1 ≤ activeCores total uMax processors := by
  rw [activeCores]
  split_ifs with hfull
  · exact h
  · have hlt : uMax < 1.0 := lt_of_not_le (by decide) (isNaN_of_isFinite huMax) hfull
    have hrest := isPositive_one_sub huMax hlt
    have hneeded : ((total - uMax) / (1.0 - uMax)).isNaN = false :=
      isNaN_div (isNaN_sub htotal huMax) hrest.isFinite hrest.zero_lt
    dsimp only
    split_ifs with hsmall
    · exact le_rfl
    · exact one_le_ceilingUpTo h (value_pos_of_not_le_one hneeded hsmall)

/-- **The cores that CSF keeps awake are one at least and all of them at most**, whatever finite
utilizations are counted. So the frequency that is reckoned next is not divided by zero. A server that
fills a core alone keeps all of them awake. -/
theorem activeCores_inRange (hprocessors : 1 ≤ processors) (htotal : total.isFinite = true)
    (huMax : uMax.isFinite = true) :
    let cores := activeCores total uMax processors
    1 ≤ cores ∧ cores ≤ processors ∧ 0.0 < Float.ofNat cores ∧
      (1.0 ≤ uMax → cores = processors) := by
  have hone := one_le_activeCores hprocessors htotal huMax
  exact ⟨hone, activeCores_le hprocessors, zero_lt_ofNat hone, fun hfull => if_pos hfull⟩

/-- A sum that is almost too large for a double needs infinitely many cores beside a server that almost
fills one, and is given the four that there are. -/
theorem activeCores_inRange_overloaded :
    let total : Float := 1e308
    let uMax : Float := 0.9999999999999999
    total.isFinite = true ∧ uMax.isFinite = true ∧ ((total - uMax) / (1.0 - uMax)).isInf = true ∧
      1 ≤ activeCores total uMax 4 ∧ activeCores total uMax 4 ≤ 4 ∧
      0.0 < Float.ofNat (activeCores total uMax 4) ∧
      (1.0 : Float) ≤ 1.5 ∧ activeCores total 1.5 4 = 4 := by
  intro total uMax
  have htotal : total.isFinite = true := by decide +kernel
  have huMax : uMax.isFinite = true := by decide +kernel
  have hfull : (1.0 : Float) ≤ 1.5 := by decide
  obtain ⟨hone, hall, hpos, -⟩ := activeCores_inRange (show 1 ≤ 4 by decide) htotal huMax
  refine ⟨htotal, huMax, by decide +kernel, hone, hall, hpos, hfull, ?_⟩
  exact (activeCores_inRange (by decide) htotal (by decide)).2.2.2 hfull

end Formula

end SchedAudit
