import Mathlib
import SchedAudit.Decimal.Fixed
import SchedAudit.Proofs.Binary64.Rounding

/-!
# What fixed decimals tell

A double with a set number of decimals is the nearest one of the decimals with so many places, halfway
the even one (`roundsTo_roundToPlaces`). Digits are padded to a width that depends on the number of
places alone, so that nothing is lost when a decimal is written (`pointed_injective`). Two unsigned
doubles are therefore written alike just in case they round to one decimal (`fixed_eq_iff`), an infinity
only like itself.
-/

namespace SchedAudit.Decimal

open Binary64 Float.Model UnpackedFloat

/-! ## Rounding -/

/-- Decimals are rounded as the mantissas of doubles are. -/
theorem roundHalfEven_eq (num : ℕ) {den : ℕ} (hden : 0 < den) : roundHalfEven num den =
    (ExtendedMantissa.ofMantissaAndAccuracy (num / den)
      (accuracyOfFraction (num % den) den)).roundedMantissa := by
  rw [roundHalfEven, accuracyOfFraction]
  rcases lt_trichotomy (2 * (num % den)) den with hless | heven | hmore
  · rw [if_pos hless, compare_lt_iff_lt.2 hless]
    split_ifs <;> rfl
  · have hrest : num % den ≠ 0 := by omega
    rw [if_neg heven.not_lt, if_neg heven.not_gt, if_neg hrest, compare_eq_iff_eq.2 heven]
    rcases Nat.mod_two_eq_zero_or_one (num / den) with hparity | hparity
    · rw [if_pos hparity]
      exact (congrArg (num / den + ·) hparity).symm
    · rw [if_neg (by omega)]
      exact (congrArg (num / den + ·) hparity).symm
  · rw [if_neg (lt_asymm hmore), if_pos hmore, compare_gt_iff_gt.2 hmore, if_neg (by omega)]
    rfl

theorem roundsTo_roundHalfEven (num : ℕ) {den : ℕ} (hden : 0 < den) :
    RoundsTo (num / den) (roundHalfEven num den) := by
  rw [roundHalfEven_eq num hden]
  exact (locates_div num hden).roundsTo

theorem roundsTo_roundToPlaces (places m : ℕ) (e : ℤ) :
    RoundsTo (m * 2 ^ e * 10 ^ places) (roundToPlaces places m e) := by
  rw [roundToPlaces]
  split_ifs with he
  · obtain ⟨k, rfl⟩ := Int.eq_ofNat_of_zero_le he
    have hvalue : (m * 2 ^ (k : ℤ) * 10 ^ places : ℚ) = (m * 2 ^ k * 10 ^ places : ℕ) := by
      push_cast
      rw [zpow_natCast]
    rw [hvalue]
    exact roundsTo_natCast _
  · obtain ⟨k, rfl⟩ : ∃ k : ℕ, e = -k := ⟨e.natAbs, by omega⟩
    have hvalue : (m * 2 ^ (-k : ℤ) * 10 ^ places : ℚ) =
        (m * 10 ^ places : ℕ) / (2 ^ k : ℕ) := by
      push_cast
      rw [zpow_neg, zpow_natCast]
      ring
    rw [hvalue, neg_neg, Int.toNat_natCast]
    exact roundsTo_roundHalfEven _ (Nat.two_pow_pos k)

/-! ## Digits -/

theorem toList_paddedDigits (width n : ℕ) : (paddedDigits width n).toList =
    List.replicate (width - (Nat.toDigits 10 n).length) '0' ++ Nat.toDigits 10 n :=
  String.toList_ofList

/-- Padding is nothing to the number. -/
theorem ofDigitChars_paddedDigits (width n : ℕ) :
    Nat.ofDigitChars 10 (paddedDigits width n).toList 0 = n := by
  rw [toList_paddedDigits, Nat.ofDigitChars_append, Nat.ofDigitChars_replicate_zero, mul_zero,
    Nat.ofDigitChars_ten_toDigits]

theorem paddedDigits_injective (width : ℕ) : Function.Injective (paddedDigits width) :=
  fun m n h => by
    rw [← ofDigitChars_paddedDigits width m, h, ofDigitChars_paddedDigits]

/-- Numbers below a power of ten fill the same width. -/
theorem length_paddedDigits {width n : ℕ} (hn : n < 10 ^ width) :
    (paddedDigits width n).toList.length = max width 1 := by
  have hpos : 0 < (Nat.toDigits 10 n).length := Nat.length_toDigits_pos
  have hle : (Nat.toDigits 10 n).length ≤ max width 1 :=
    (Nat.length_toDigits_le_iff (by decide) (by omega)).2
      (hn.trans_le (Nat.pow_le_pow_right (by decide) (le_max_left _ _)))
  rw [toList_paddedDigits, List.length_append, List.length_replicate]
  omega

theorem toList_pointed (places units : ℕ) : (pointed places units).toList =
    (paddedDigits 1 (units / 10 ^ places)).toList ++
      '.' :: (paddedDigits places (units % 10 ^ places)).toList := by
  rw [pointed, String.toList_append, String.toList_append, List.append_assoc]
  rfl

/-- **Each number of units is written in its own way.** The digits behind the point are equally many,
so they are the same in equal texts, and so are those in front of it. -/
theorem pointed_injective (places : ℕ) : Function.Injective (pointed places) := by
  intro m n h
  have hlength (u : ℕ) : (paddedDigits places (u % 10 ^ places)).toList.length = max places 1 :=
    length_paddedDigits (Nat.mod_lt u (Nat.pow_pos (by decide)))
  rw [← String.toList_inj, toList_pointed, toList_pointed] at h
  obtain ⟨hfront, hback⟩ := List.append_inj' h (by
    rw [List.length_cons, List.length_cons, hlength, hlength])
  have hwhole := paddedDigits_injective _ (String.toList_inj.1 hfront)
  have hrest := paddedDigits_injective _ (String.toList_inj.1 (List.cons.inj hback).2)
  rw [← Nat.div_add_mod m (10 ^ places), hwhole, hrest, Nat.div_add_mod]

theorem pointed_ne_inf (places units : ℕ) : pointed places units ≠ "inf" := by
  intro h
  have hpoint : '.' ∈ (pointed places units).toList := by simp [toList_pointed]
  rw [h] at hpoint
  exact absurd hpoint (by decide)

/-! ## Doubles -/

section Doubles

variable {places : ℕ} {x y : Float}

/-- An unsigned double is infinite, or the nearest decimal is written. -/
theorem fixed_cases (places : ℕ) (hx : IsUnsigned x) :
    (magnitude x = infinityMagnitude ∧ fixed places x = "inf") ∨
    (magnitude x < infinityMagnitude ∧ ∃ units, fixed places x = pointed places units ∧
      RoundsTo (value x * 10 ^ places) units) := by
  rcases eq_or_lt_of_le (magnitude_le hx.isNaN) with heq | hlt
  · refine .inl ⟨heq, ?_⟩
    have hclass : classify x = .infinite false := by
      rw [classify, heq, hx.isNegative]
      rfl
    rw [fixed, hclass]
    rfl
  · refine .inr ⟨hlt, ?_⟩
    obtain ⟨m, e, hclass⟩ : ∃ m e, classify x = .finite false m e := by
      rw [infinityMagnitude] at hlt
      have hbits : magnitude x / Nat.pow 2 52 ≠ 2047 := by
        change magnitude x / 2 ^ 52 ≠ 2047
        omega
      rw [classify, hx.isNegative]
      simp only [if_neg hbits]
      split_ifs <;> exact ⟨_, _, rfl⟩
    refine ⟨roundToPlaces places m e, ?_, ?_⟩
    · rw [fixed, hclass]
      exact String.empty_append
    · rw [value, hclass]
      exact roundsTo_roundToPlaces places m e

/-- A number is so far below the infinities that it does not round to what they round to. -/
theorem not_roundsTo_of_infinity {units : ℕ}
    (h : RoundsTo (scale infinityMagnitude * 10 ^ places) units) (hx : IsUnsigned x)
    (hlt : magnitude x < infinityMagnitude) : ¬RoundsTo (value x * 10 ^ places) units := by
  intro hrounds
  have hgap : value x + 2 ^ ((2045 : ℕ) - 1074 : ℤ) ≤ scale infinityMagnitude := by
    rw [hx.value_eq_scale]
    exact scale_add_zpow_le hlt (by rw [infinityMagnitude]; norm_num)
  have hstep : (2 : ℚ) ^ (1 : ℤ) ≤ 2 ^ ((2045 : ℕ) - 1074 : ℤ) :=
    zpow_le_zpow_right₀ one_le_two (by norm_num)
  rw [zpow_one] at hstep
  have hpow : (1 : ℚ) ≤ 10 ^ places := one_le_pow₀ (by norm_num)
  have hle : (value x + 2) * 10 ^ places ≤ scale infinityMagnitude * 10 ^ places :=
    mul_le_mul_of_nonneg_right (by linarith only [hgap, hstep]) (by linarith only [hpow])
  rw [add_mul] at hle
  linarith only [hpow, hle, h.le_add_half, hrounds.sub_half_le]

/-- **Two doubles are written alike just in case they round to one decimal.** -/
theorem fixed_eq_iff (hx : IsUnsigned x) (hy : IsUnsigned y) :
    fixed places x = fixed places y ↔ ∃ units : ℕ,
      RoundsTo (value x * 10 ^ places) units ∧ RoundsTo (value y * 10 ^ places) units := by
  have hvalue {z : Float} (hz : IsUnsigned z) (htop : magnitude z = infinityMagnitude) :
      value z = scale infinityMagnitude := by rw [hz.value_eq_scale, htop]
  rcases fixed_cases places hx with ⟨hxtop, hxtext⟩ | ⟨hxfinite, m, hxtext, hm⟩ <;>
    rcases fixed_cases places hy with ⟨hytop, hytext⟩ | ⟨hyfinite, n, hytext, hn⟩ <;>
    rw [hxtext, hytext]
  · have h := roundsTo_roundToPlaces places 1 1024
    rw [Nat.cast_one, one_mul, ← scale_infinityMagnitude] at h
    rw [hvalue hx hxtop, hvalue hy hytop]
    exact iff_of_true rfl ⟨_, h, h⟩
  · rw [hvalue hx hxtop]
    exact iff_of_false (pointed_ne_inf places n).symm fun ⟨_, hinf, hrounds⟩ =>
      not_roundsTo_of_infinity hinf hy hyfinite hrounds
  · rw [hvalue hy hytop]
    exact iff_of_false (pointed_ne_inf places m) fun ⟨_, hrounds, hinf⟩ =>
      not_roundsTo_of_infinity hinf hx hxfinite hrounds
  · rw [(pointed_injective places).eq_iff]
    constructor
    · rintro rfl
      exact ⟨m, hm, hn⟩
    · rintro ⟨k, hxk, hyk⟩
      exact (hm.unique hxk).trans (hn.unique hyk).symm

end Doubles

end SchedAudit.Decimal
