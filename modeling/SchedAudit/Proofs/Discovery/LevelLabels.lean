import Mathlib
import SchedAudit.Proofs.Decimal.Fixed
import SchedAudit.Proofs.Discovery.LevelNames

/-!
# Levels that look alike

A level is shown in hundredths, though its name may tell it with more digits. So levels look alike just
in case they round to the same hundredth (`Level.label_eq_iff`), as 0.501 and 0.502 do.

Names with at most two digits behind the point tell no such levels apart (`LevelName.eq_of_sameHundredth`).
Up to 2 ^ 46 the double that is nearest to a number of hundredths rounds back to it, since doubles are
dense enough there (`roundsTo_of_isNearest`); beyond, they are more than a hundredth apart, so that no
two of them round to the same (`value_add_lt`).
-/

namespace SchedAudit

open Binary64

/-- Two numbers round to the same hundredth. -/
def SameHundredth (x y : ℚ) : Prop :=
  ∃ k : ℕ, RoundsTo (x * 10 ^ 2) k ∧ RoundsTo (y * 10 ^ 2) k

theorem SameHundredth.symm {x y : ℚ} (h : SameHundredth x y) : SameHundredth y x :=
  h.imp fun _ => And.symm

/-- Numbers that are more than a hundredth apart do not round to the same. -/
theorem not_sameHundredth_of_lt {x y : ℚ} (h : x + 1 / 100 < y) : ¬SameHundredth x y := by
  rintro ⟨k, hx, hy⟩
  linarith [hx.sub_half_le, hy.le_add_half]

/-- **Levels look alike just in case they round to the same hundredth.** -/
theorem Level.label_eq_iff {a b : Float} (ha : IsUnsigned a) (hb : IsUnsigned b) :
    label a = label b ↔ SameHundredth (value a) (value b) := by
  rw [label, label, String.append_right_inj]
  exact Decimal.fixed_eq_iff ha hb

example : Level.label 0.501 = Level.label 0.502 := by decide +kernel

/-! ## Where doubles are dense, and where they are not -/

/-- The place of 2 ^ 46. -/
def denseUpTo : ℕ := 1069 * 2 ^ 52

/-- From there on, for a while, a double is 1 / 64 above the one before it. -/
theorem scale_denseUpTo_add {i : ℕ} (hi : i ≤ 2 ^ 52) : scale (denseUpTo + i) = 2 ^ 46 + i / 64 := by
  have hplace : denseUpTo + i = 1068 * 2 ^ 52 + (2 ^ 52 + i) := by
    rw [denseUpTo]
    omega
  rw [hplace, scale_place (by omega) (.inr (Nat.le_add_right _ _))]
  push_cast
  norm_num
  ring

section Hundredths

variable {x y : Float} {K : ℕ}

/-- Beyond that place all doubles are as far apart. -/
theorem value_add_lt (hx : IsUnsigned x) (hy : IsUnsigned y) (hlt : magnitude x < magnitude y)
    (hsparse : denseUpTo < magnitude y) : value x + 1 / 100 < value y := by
  have h := scale_add_zpow_le (t := 1068) hlt hsparse
  rw [← hx.value_eq_scale, ← hy.value_eq_scale] at h
  norm_num at h
  linarith

/-- Up to that place a number is rounded by less than half a hundredth, since multiples of 1 / 128 are
doubles. -/
theorem abs_value_sub_le {q : ℚ} (hx : IsUnsigned x) (h : IsNearest x q) (hq : 0 ≤ q)
    (hle : q ≤ 2 ^ 46) : |value x - q| ≤ 1 / 256 := by
  have hfloor := Nat.floor_le (a := q * 128 + 1 / 2) (by linarith)
  have hfloor' := Nat.lt_floor_add_one (q * 128 + 1 / 2)
  set m := ⌊q * 128 + 1 / 2⌋₊
  have hm : m ≤ 2 ^ 53 := by
    have hlt : (m : ℚ) < 2 ^ 53 + 1 := by linarith
    exact Nat.lt_succ_iff.1 (by exact_mod_cast hlt)
  obtain ⟨k, hk, hscale⟩ := exists_scale_eq (e := 7) hm (by decide)
  have hclosest := (h.nearestPlace hx).closest k hk.le
  rw [← hx.value_eq_scale, hscale] at hclosest
  refine hclosest.trans (abs_le.2 ⟨?_, ?_⟩) <;> norm_num <;> linarith

/-- A number of hundredths beyond 2 ^ 46 is not rounded down to it: the next double is nearer. -/
theorem hundredths_le (hx : IsUnsigned x) (h : IsNearest x (K / 100))
    (hdense : magnitude x ≤ denseUpTo) : (K / 100 : ℚ) ≤ 2 ^ 46 := by
  by_contra hlt
  have hhundredth : 100 * 2 ^ 46 + 1 ≤ (K : ℚ) := by
    have hsucc : 100 * 2 ^ 46 < (K : ℚ) := by linarith
    exact_mod_cast Nat.succ_le_of_lt (by exact_mod_cast hsucc)
  have hbelow : value x ≤ 2 ^ 46 := by
    have hlast := scale_denseUpTo_add (i := 0) (Nat.zero_le _)
    rw [Nat.cast_zero, zero_div, add_zero, add_zero] at hlast
    rw [hx.value_eq_scale, ← hlast]
    exact strictMono_scale.monotone hdense
  have hclosest := (h.nearestPlace hx).closest (denseUpTo + 1) (by decide)
  rw [← hx.value_eq_scale, scale_denseUpTo_add Nat.one_le_two_pow, Nat.cast_one,
    abs_of_nonpos (by linarith), le_abs] at hclosest
  rcases hclosest with hcloser | hcloser <;> linarith

/-- Up to that place a number of hundredths is what its double rounds to. -/
theorem roundsTo_of_isNearest (hx : IsUnsigned x) (h : IsNearest x (K / 100))
    (hdense : magnitude x ≤ denseUpTo) : RoundsTo (value x * 10 ^ 2) K := by
  have hclose := abs_le.1 (abs_value_sub_le hx h (by positivity) (hundredths_le hx h hdense))
  refine ⟨by linarith, by linarith, ?_⟩
  rintro (heq | heq) <;> linarith

end Hundredths

/-! ## Names with hundredths -/

namespace LevelName

/-- A name with at most two digits behind the point. -/
def Short (n : LevelName) : Prop := n.fraction.toList.length ≤ 2

variable {m n : LevelName} {x y : Float}

theorem Short.exists_decimal_eq (h : n.Short) : ∃ K : ℕ, n.decimal = K / 100 := by
  obtain ⟨d, hd⟩ := Nat.exists_eq_add_of_le h
  have hpow : (100 : ℚ) = 10 ^ n.fraction.toList.length * 10 ^ d := by
    rw [← pow_add, ← hd]
    norm_num
  refine ⟨naturalOf n.whole * 100 + naturalOf n.fraction * 10 ^ d, ?_⟩
  push_cast
  rw [decimal, hpow]
  field_simp

/-- **Levels with at most two decimals do not look alike unless they are the same.** -/
theorem eq_of_sameHundredth (hm : m.Short) (hn : n.Short) (hx : IsUnsigned x) (hy : IsUnsigned y)
    (hxm : IsNearest x m.decimal) (hyn : IsNearest y n.decimal)
    (h : SameHundredth (value x) (value y)) : x = y := by
  wlog hle : magnitude x ≤ magnitude y generalizing m n x y
  · exact (this hn hm hy hx hyn hxm h.symm (le_of_not_ge hle)).symm
  rcases lt_or_ge denseUpTo (magnitude y) with hsparse | hdense
  · rcases lt_or_eq_of_le hle with hlt | heq
    · exact absurd h (not_sameHundredth_of_lt (value_add_lt hx hy hlt hsparse))
    · exact hx.eq_of_magnitude_eq hy heq
  · obtain ⟨K, hK⟩ := hm.exists_decimal_eq
    obtain ⟨L, hL⟩ := hn.exists_decimal_eq
    obtain ⟨k, hxk, hyk⟩ := h
    have hKk := (roundsTo_of_isNearest hx (hK ▸ hxm) (hle.trans hdense)).unique hxk
    have hLk := (roundsTo_of_isNearest hy (hL ▸ hyn) hdense).unique hyk
    rw [hL, hLk, ← hKk, ← hK] at hyn
    exact hxm.unique hyn hx hy

end LevelName

end SchedAudit
