import Mathlib
import SchedAudit.Proofs.Binary64.Rounding

/-!
# Decimals are read to the nearest double

A decimal is a natural number times a power of ten, and it is read to the nearest double
(`isNearest_nearest`), though it is not always computed in one way. A short number and a small power
of ten are doubles themselves, so that one product or quotient rounds (`isNearest_ofScientific`); longer
ones are rounded from the exact product or quotient. And where the number of digits alone decides,
nothing is computed: what is below half the least double is nearest to zero, and what is beyond the
infinities is nearest to them.

The largest double has more than a thousand bits, so a natural number of 64 bits is nearer to zero than
to an infinity, and read as a finite double (`isInf_nearest`).
-/

namespace SchedAudit.Binary64

open Float.Model UnpackedFloat

/-! ## Natural numbers -/

/-- A natural number that is shifted to 53 bits, or is longer. -/
theorem two_pow_le_shifted {n : ℕ} (hn : 0 < n) : 2 ^ 52 ≤ n * 2 ^ (52 - n.log2) := calc
  2 ^ 52 ≤ 2 ^ (n.log2 + (52 - n.log2)) := Nat.pow_le_pow_right two_pos (by omega)
  _ = 2 ^ n.log2 * 2 ^ (52 - n.log2) := Nat.pow_add ..
  _ ≤ n * 2 ^ (52 - n.log2) := Nat.mul_le_mul_right _ (Nat.log2_self_le hn.ne')

theorem isNearest_ofNat {n : ℕ} (hn : 0 < n) :
    IsNearest (Float.ofModel (pack (UnpackedFloat.ofNat .binary64 n))) n := by
  rw [UnpackedFloat.ofNat, UnpackedFloat.ofInt, UnpackedFloat.normalize,
    compare_gt_iff_gt.2 (Int.natCast_pos.2 hn)]
  have h := isNearest_round hn 0
  rwa [zpow_zero, mul_one] at h

/-- A number of 53 bits has a place on the scale, also with some of them behind the point. -/
theorem exists_scale_eq {n e : ℕ} (hle : n ≤ 2 ^ 53) (he : e ≤ 1022) :
    ∃ k < infinityMagnitude, scale k = n * 2 ^ (-(e : ℤ)) := by
  rcases Nat.eq_zero_or_pos n with rfl | hn
  · exact ⟨0, by decide, by rw [scale_zero, Nat.cast_zero, zero_mul]⟩
  have hlow := two_pow_le_shifted hn
  have hhigh : n * 2 ^ (52 - n.log2) ≤ 2 ^ 53 := by
    rcases Nat.lt_or_ge n.log2 53 with hlog | hlog
    · calc n * 2 ^ (52 - n.log2) ≤ 2 ^ (n.log2 + 1) * 2 ^ (52 - n.log2) :=
            Nat.mul_le_mul_right _ Nat.lt_log2_self.le
        _ = 2 ^ 53 := by rw [← Nat.pow_add]; congr 1; omega
    · rwa [Nat.sub_eq_zero_of_le (by omega), pow_zero, mul_one]
  refine ⟨(1074 - e - (52 - n.log2)) * 2 ^ 52 + n * 2 ^ (52 - n.log2), ?_, ?_⟩
  · rw [infinityMagnitude]
    omega
  · have hexponent : ((1074 - e - (52 - n.log2) : ℕ) : ℤ) - 1074 =
        -((52 - n.log2 : ℕ) : ℤ) + -(e : ℤ) := by omega
    rw [scale_place hhigh (.inr hlow), hexponent, zpow_add₀ two_ne_zero, zpow_neg, zpow_natCast]
    push_cast
    field_simp

/-- A natural number of 53 bits is converted as it is. -/
theorem value_toFloat {n : ℕ} (hn : 0 < n) (hlt : n < 2 ^ 53) :
    IsPositive n.toUInt64.toFloat ∧ value n.toUInt64.toFloat = n := by
  have hsame : n.toUInt64.toNat = n := by
    rw [Nat.toUInt64, UInt64.toNat_ofNat', Nat.mod_eq_of_lt (by omega)]
  have hnearest : IsNearest n.toUInt64.toFloat n := by
    have h : IsNearest n.toUInt64.toFloat n.toUInt64.toNat := isNearest_ofNat (hsame.symm ▸ hn)
    rwa [hsame] at h
  obtain ⟨k, hk, hscale⟩ := exists_scale_eq (e := 0) hlt.le (Nat.zero_le _)
  rw [Nat.cast_zero, neg_zero, zpow_zero, mul_one] at hscale
  rw [← hscale] at hnearest ⊢
  have hvalue := hnearest.value_eq hk.le
  refine ⟨isPositive_of_value (isUnsigned_pack (unsigned_ofNat _)) ?_ ?_, hvalue⟩
  · rw [hvalue, hscale]
    exact Nat.cast_pos.2 hn
  · rw [hvalue]
    exact strictMono_scale hk

/-! ## Powers of ten -/

/-- Whether a value is a given natural number. -/
def Value.isNatural (n : ℕ) : Value → Bool
  | .finite false m e => m * 2 ^ e.toNat == n * 2 ^ (-e).toNat
  | _ => false

theorem Value.toRat_of_isNatural {n : ℕ} {v : Value} (h : v.isNatural n = true) : v.toRat = n := by
  rw [isNatural.eq_def] at h
  split at h
  · next m e =>
    have hcast : (m * 2 ^ e.toNat : ℚ) = n * 2 ^ (-e).toNat := by exact_mod_cast beq_iff_eq.1 h
    rw [toRat_finite, if_neg Bool.false_ne_true]
    obtain ⟨k, rfl | rfl⟩ := e.eq_nat_or_neg
    · rw [zpow_natCast]
      simpa using hcast
    · rw [zpow_neg, zpow_natCast]
      have hcast : (m : ℚ) = n * 2 ^ k := by simpa using hcast
      rw [hcast]
      field_simp
  · cases h

/-- The powers of ten that are doubles. -/
theorem value_powerOfTen (i : Fin 23) :
    value Float.exactlyRepresentablePowersOfTen[i] = 10 ^ (i : ℕ) := by
  have hpowers : ∀ i : Fin 23,
      (classify Float.exactlyRepresentablePowersOfTen[i]).isNatural (10 ^ (i : ℕ)) = true := by
    decide +kernel
  have hvalue := Value.toRat_of_isNatural (hpowers i)
  push_cast at hvalue
  exact hvalue

/-! ## Decimals -/

/-- A short number and a small power of ten are doubles, and only their product or quotient is
rounded. -/
theorem isNearest_short {n e : ℕ} (hn : 0 < n) (hlt : n < 2 ^ 53) (he : e ≤ 22) (negative : Bool) :
    IsNearest (Float.ofScientific n negative e) (if negative then n / 10 ^ e else n * 10 ^ e) := by
  unfold Float.ofScientific
  rw [dif_pos ⟨hlt, he⟩]
  obtain ⟨hpositive, hvalue⟩ := value_toFloat hn hlt
  have hpower := isPositive_powerOfTen ⟨e, Nat.lt_succ_of_le he⟩
  have hvalue' := value_powerOfTen ⟨e, Nat.lt_succ_of_le he⟩
  rw [← hvalue, ← hvalue']
  cases negative with
  | true => exact hpositive.isNearest_div hpower
  | false => exact hpositive.isNearest_mul hpower

theorem le_log2_shiftLeft_mul {n p : ℕ} (hn : 0 < n) (hp : 0 < p) (k : ℕ) :
    k ≤ ((n <<< k) * p).log2 := by
  have hle : 2 ^ k ≤ (n <<< k) * p := calc
    2 ^ k ≤ n * 2 ^ k := Nat.le_mul_of_pos_left _ hn
    _ = n <<< k := (Nat.shiftLeft_eq n k).symm
    _ ≤ (n <<< k) * p := Nat.le_mul_of_pos_right _ hp
  exact (Nat.le_log2 (Nat.lt_of_lt_of_le (Nat.two_pow_pos k) hle).ne').2 hle

/-- A number that is shifted has bits enough for a product. -/
theorem isNearest_mul_shifted {n p k : ℕ} (hk : 52 ≤ k) (hn : 0 < n) (hshifted : 0 < n <<< k)
    (hp : 0 < p) :
    IsNearest (Float.ofModel (pack (UnpackedFloat.mul .binary64
      (.finite .positive (n <<< k) (-k) hshifted) (.finite .positive p 0 hp)))) (n * p) := by
  have he : (-k + 0 : ℤ) ≤ exponentFor (n <<< k * p) (-k + 0) := by
    have hlog := le_log2_shiftLeft_mul hn hp k
    rw [exponentFor]
    omega
  have hvalue : ((n <<< k : ℕ) : ℚ) * 2 ^ (-k : ℤ) * (p * 2 ^ (0 : ℤ)) = n * p := by
    rw [Nat.shiftLeft_eq, zpow_neg, zpow_natCast, zpow_zero]
    push_cast
    field_simp
  have h := isNearest_mul_finite hshifted hp he
  rwa [hvalue] at h

/-- A longer one is rounded from the exact product or quotient, unless it is out of all bounds. -/
theorem isNearest_long {n : ℕ} {e : ℤ} (hn : 0 < n) (hhigh : e ≤ 2048)
    (hlow : -(2048 + n.log2) ≤ e) :
    IsNearest (Float.ofModel (pack (UnpackedFloat.ofScientific .binary64 n e))) (n * 10 ^ e) := by
  fun_cases UnpackedFloat.ofScientific with
  | case1 hzero => exact absurd hzero hn.ne'
  | case2 hzero hhuge =>
    change (2 : ℤ) ^ 11 < e at hhuge
    omega
  | case3 hzero hhuge htiny =>
    change e < -((2 : ℤ) ^ 11 + n.log2) at htiny
    omega
  | case4 hzero hhuge htiny hnonneg =>
    obtain ⟨k, rfl⟩ := Int.eq_ofNat_of_zero_le hnonneg
    have h := isNearest_mul_shifted (p := 10 ^ k) (k := Format.binary64.mantissaBits) (by decide) hn
      (by rw [Nat.shiftLeft_eq]; exact Nat.mul_pos hn (Nat.two_pow_pos _)) (Nat.pow_pos (by decide))
    push_cast at h
    exact h
  | case5 hzero hhuge htiny hnonneg =>
    have h := @isNearest_div_finite n (10 ^ (-e).toNat) 0 0 hn (Nat.pow_pos (by decide))
    have hvalue : (n * 2 ^ (0 : ℤ) / ((10 ^ (-e).toNat : ℕ) * 2 ^ (0 : ℤ)) : ℚ) = n * 10 ^ e := by
      obtain ⟨k, rfl⟩ : ∃ k : ℕ, e = -k := ⟨e.natAbs, by omega⟩
      rw [neg_neg, Int.toNat_natCast, zpow_neg, zpow_natCast, zpow_zero]
      push_cast
      rw [mul_one, mul_one, div_eq_mul_inv]
    rwa [hvalue] at h

theorem isNearest_ofScientific {n : ℕ} {e : ℤ} (hn : 0 < n) (hhigh : e ≤ 2048)
    (hlow : -(2048 + n.log2) ≤ e) :
    IsNearest (Float.ofScientific n (decide (e < 0)) e.natAbs) (n * 10 ^ e) := by
  by_cases hfast : n < 2 ^ 53 ∧ e.natAbs ≤ 22
  · have h := isNearest_short hn hfast.1 hfast.2 (decide (e < 0))
    have hvalue : (if decide (e < 0) = true then n / 10 ^ e.natAbs else n * 10 ^ e.natAbs : ℚ) =
        n * 10 ^ e := by
      rcases lt_or_ge e 0 with hneg | hnonneg
      · obtain ⟨k, rfl⟩ : ∃ k : ℕ, e = -k := ⟨e.natAbs, by omega⟩
        rw [decide_eq_true hneg, if_pos rfl, Int.natAbs_neg, Int.natAbs_natCast, zpow_neg,
          zpow_natCast, div_eq_mul_inv]
      · obtain ⟨k, rfl⟩ := Int.eq_ofNat_of_zero_le hnonneg
        rw [decide_eq_false (not_lt.2 hnonneg), if_neg Bool.false_ne_true, Int.natAbs_natCast,
          zpow_natCast]
    rwa [hvalue] at h
  · have hexponent : (if decide (e < 0) then Int.negOfNat e.natAbs else Int.ofNat e.natAbs) = e := by
      rw [Int.negOfNat_eq, Int.ofNat_eq_natCast]
      split_ifs with hneg
      · rw [decide_eq_true_eq] at hneg
        omega
      · rw [decide_eq_true_eq] at hneg
        omega
    unfold Float.ofScientific
    rw [dif_neg hfast, hexponent]
    exact isNearest_long hn hhigh hlow

end SchedAudit.Binary64

namespace SchedAudit.Decimal

open Binary64

/-! ## The number of digits -/

theorem lt_pow_digitCount (n : ℕ) : n < 10 ^ digitCount n :=
  (Nat.length_toDigits_le_iff (by decide) Nat.length_toDigits_pos).1 le_rfl

theorem pow_digitCount_le {n : ℕ} (hn : 0 < n) : 10 ^ (digitCount n - 1) ≤ n := by
  rcases Nat.eq_zero_or_pos (digitCount n - 1) with hzero | hpos
  · rw [hzero]
    exact hn
  · refine not_lt.1 fun hlt => ?_
    have hle : digitCount n ≤ digitCount n - 1 :=
      (Nat.length_toDigits_le_iff (by decide) hpos).2 hlt
    omega

theorem digitCount_le_log2 (n : ℕ) : digitCount n ≤ n.log2 + 1 := by
  refine (Nat.length_toDigits_le_iff (by decide) (Nat.succ_pos _)).2 ?_
  exact Nat.lt_log2_self.trans_le (Nat.pow_le_pow_left (by decide) _)

/-- The digits bound a decimal from above, whatever they are. -/
theorem mul_zpow_le (digits : ℕ) (exponent : ℤ) :
    (digits * 10 ^ exponent : ℚ) ≤ 10 ^ (digitCount digits + exponent : ℤ) := by
  have hdigits : (digits : ℚ) ≤ 10 ^ digitCount digits := by
    exact_mod_cast (lt_pow_digitCount digits).le
  rw [zpow_add₀ (by norm_num), zpow_natCast]
  exact mul_le_mul_of_nonneg_right hdigits (zpow_pos (by norm_num) _).le

/-- The digits bound a decimal from below, since the first one is not zero. -/
theorem zpow_le_mul {digits : ℕ} {exponent k : ℤ} (hpos : 0 < digits)
    (hk : k < digitCount digits + exponent) : (10 : ℚ) ^ k ≤ digits * 10 ^ exponent := by
  have hdigits : (10 : ℚ) ^ (digitCount digits - 1) ≤ digits := by
    exact_mod_cast pow_digitCount_le hpos
  calc (10 : ℚ) ^ k ≤ 10 ^ ((digitCount digits - 1 : ℕ) + exponent : ℤ) :=
        zpow_le_zpow_right₀ (by norm_num) (by omega)
    _ = 10 ^ (digitCount digits - 1) * 10 ^ exponent := by
        rw [zpow_add₀ (by norm_num), zpow_natCast]
    _ ≤ digits * 10 ^ exponent :=
        mul_le_mul_of_nonneg_right hdigits (zpow_pos (by norm_num) _).le

/-! ## Where the digits alone decide -/

theorem magnitude_zero : magnitude 0.0 = 0 := by decide +kernel

theorem value_zero : value 0.0 = 0 := by
  rw [value_eq (by decide), magnitude_zero, scale_zero, neg_zero, ite_self]

/-- What is at most half the least positive double is nearest to zero. -/
theorem isNearest_zero {q : ℚ} (hq : 0 ≤ q) (h : q ≤ 2 ^ (-1075 : ℤ)) : IsNearest 0.0 q := by
  have hunit := two_zpow_pos (-1074)
  obtain ⟨x, rfl⟩ : ∃ x, q = x * 2 ^ (-1074 : ℤ) :=
    ⟨q / 2 ^ (-1074 : ℤ), (div_mul_cancel₀ q hunit.ne').symm⟩
  have hnonneg : 0 ≤ x := nonneg_of_mul_nonneg_left hq hunit
  have hhalf : x ≤ 1 / 2 := by
    have hpow : (2 : ℚ) ^ (-1075 : ℤ) = 1 / 2 * 2 ^ (-1074 : ℤ) := by
      rw [one_div, ← zpow_neg_one, ← zpow_add₀ two_ne_zero]
      norm_num
    rw [hpow] at h
    exact le_of_mul_le_mul_right h hunit
  have hrounds : RoundsTo x 0 :=
    ⟨by rwa [Nat.cast_zero, zero_add], by rw [Nat.cast_zero]; linarith, fun _ => rfl⟩
  have hplace := (nearest_place (t := 0) hnonneg hrounds (by linarith) (.inl rfl)).cut
  refine NearestPlace.isNearest ?_ hq (by decide) (by decide)
  rw [magnitude_zero]
  simpa using hplace

/-- What is nearest to a number beyond the infinities is nearest to all of them. -/
theorem isNearest_of_infinityMagnitude_le {x : Float} {p q : ℚ} (hx : IsUnsigned x)
    (h : IsNearest x p) (hp : scale infinityMagnitude ≤ p) (hq : scale infinityMagnitude ≤ q) :
    IsNearest x q := by
  have hmagnitude : infinityMagnitude = magnitude x :=
    (nearestPlace_infinityMagnitude hp).unique (h.nearestPlace hx) le_rfl (magnitude_le hx.isNaN)
  have hplace := nearestPlace_infinityMagnitude hq
  rw [hmagnitude] at hplace
  exact hplace.isNearest ((scale_nonneg _).trans hq) hx.isNaN hx.isNegative

/-- **A decimal is read to the nearest double.** -/
theorem isNearest_nearest (digits : ℕ) (exponent : ℤ) :
    IsNearest (nearest digits exponent) (digits * 10 ^ exponent) := by
  have hlow : (2 : ℕ) ^ 1075 ≤ 10 ^ 331 := by decide +kernel
  have hhigh : (2 : ℕ) ^ 1024 ≤ 10 ^ 310 := by decide +kernel
  rw [nearest]
  split_ifs with hzero hlarge hsmall
  · rw [hzero, Nat.cast_zero, zero_mul]
    exact isNearest_zero le_rfl (two_zpow_pos _).le
  · have hfirst : IsNearest (Float.ofScientific 1 false 310) (((1 : ℕ) : ℚ) * 10 ^ (310 : ℤ)) :=
      isNearest_ofScientific (e := 310) Nat.one_pos (by decide) (by decide)
    have htop : scale infinityMagnitude ≤ 10 ^ (310 : ℤ) := by
      rw [scale_infinityMagnitude]
      exact_mod_cast hhigh
    exact isNearest_of_infinityMagnitude_le (isUnsigned_ofScientific 1 false 310) hfirst
      (by rwa [Nat.cast_one, one_mul])
      (htop.trans (zpow_le_mul (Nat.pos_of_ne_zero hzero) hlarge))
  · have hnonneg : (0 : ℚ) ≤ digits * 10 ^ exponent :=
      mul_nonneg (Nat.cast_nonneg _) (zpow_pos (by norm_num) _).le
    refine isNearest_zero hnonneg ((mul_zpow_le digits exponent).trans ?_)
    calc (10 : ℚ) ^ (digitCount digits + exponent : ℤ) ≤ 10 ^ (-331 : ℤ) :=
          zpow_le_zpow_right₀ (by norm_num) (by omega)
      _ ≤ 2 ^ (-1075 : ℤ) := by
          rw [zpow_neg, zpow_neg]
          refine inv_anti₀ (zpow_pos two_pos _) ?_
          exact_mod_cast hlow
  · have hlog := digitCount_le_log2 digits
    exact isNearest_ofScientific (Nat.pos_of_ne_zero hzero) (by omega) (by omega)

/-- **A natural number of 64 bits is within the doubles**: zero would be closer than an infinity. -/
theorem isInf_nearest {n : ℕ} (hn : n < 2 ^ 64) : (nearest n 0).isInf = false := by
  have hunsigned := isUnsigned_nearest n 0
  have hclosest := (isNearest_nearest n 0).closest 0.0 (by decide)
  rw [value_zero, hunsigned.value_eq_scale, zpow_zero, mul_one, zero_sub, abs_neg, Nat.abs_cast]
    at hclosest
  refine Bool.eq_false_iff.2 fun hinf => ?_
  change (nearest n 0).toModel.unpack.isInf = true at hinf
  have hmagnitude : magnitude (nearest n 0) = infinityMagnitude := by
    rcases unpack_cases (nearest n 0) with h | ⟨hmag, -⟩ | ⟨-, h⟩ | ⟨m, e, hm, h, -⟩
    · rw [h] at hinf
      cases hinf
    · exact hmag
    · rw [h] at hinf
      cases hinf
    · rw [h] at hinf
      cases hinf
  rw [hmagnitude, scale_infinityMagnitude] at hclosest
  have hdouble : (2 : ℚ) ^ (1024 : ℤ) ≤ 2 * n := by linarith only [(le_abs_self _).trans hclosest]
  have hsmall : (2 : ℚ) * n < 2 ^ (65 : ℤ) := by
    have h : 2 * n < 2 ^ 65 := by omega
    exact_mod_cast h
  have hlarge : (2 : ℚ) ^ (65 : ℤ) ≤ 2 ^ (1024 : ℤ) :=
    zpow_le_zpow_right₀ (by norm_num) (by norm_num)
  exact absurd (hdouble.trans_lt hsmall) (not_lt.2 hlarge)

end SchedAudit.Decimal
