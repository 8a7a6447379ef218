import Mathlib
import SchedAudit.Proofs.Binary64.Rounding

/-!
# Differences

A difference is rounded once, so what holds of it is told by three facts:

* rounding does not look at the sign. So a difference that is turned around changes nothing but its
  sign, also where it overflows (`abs_sub_swap`);
* only infinities and what is not a number can lose it (`isNaN_sub`);
* where it is above zero it is rounded to the nearest double (`IsPositive.isNearest_sub`). The values of
  all finite doubles are multiples of the least one, and so are their differences: none that is above
  zero is rounded down to zero (`least_le_value_sub`).
-/

namespace SchedAudit.Binary64

open Float.Model UnpackedFloat

variable {x y : Float}

/-! ## What is not a number -/

theorem unpack_of_isNaN (hx : x.isNaN = true) : x.toModel.unpack = .notANumber := by
  change x.toModel.unpack.isNaN = true at hx
  cases h : x.toModel.unpack with
  | notANumber => rfl
  | _ =>
    rw [h] at hx
    cases hx

/-- There is one double that is not a number. -/
theorem eq_of_isNaN (hx : x.isNaN = true) (hy : y.isNaN = true) : x = y := by
  have hbits {z : Float} (hz : z.isNaN = true) :
      z.toModel.toBits.toBitVec = packedNaN .binary64 := by
    have hnan : ¬z.toModel.unpack.isNaN = false := fun h => Bool.eq_false_iff.1 h hz
    obtain ⟨hexponent, hmantissa⟩ := Classical.not_imp.1 (mt isNaN_unpack_eq_false_iff.2 hnan)
    exact z.toModel.valid.eq_packedNaN hexponent hmantissa
  have hsame := UInt64.toBitVec_inj.1 ((hbits hx).trans (hbits hy).symm)
  obtain ⟨⟨a, ha⟩⟩ := x
  obtain ⟨⟨b, hb⟩⟩ := y
  obtain rfl : a = b := hsame
  rfl

theorem isNaN_of_eq_notANumber {f : UnpackedFloat} (hf : f = .notANumber) :
    (Float.ofModel (pack f)).isNaN = true := by
  subst hf
  decide

theorem isNaN_sub_of_isNaN (h : x.isNaN = true ∨ y.isNaN = true) : (x - y).isNaN = true := by
  have hnan : x.toModel.unpack.sub .binary64 y.toModel.unpack = .notANumber := by
    rcases h with h | h <;> rw [unpack_of_isNaN h]
    · rfl
    · cases x.toModel.unpack <;> rfl
  exact isNaN_of_eq_notANumber hnan

theorem isNaN_div_of_isNaN (y : Float) (h : x.isNaN = true) : (x / y).isNaN = true := by
  have hnan : x.toModel.unpack.div .binary64 y.toModel.unpack = .notANumber := by
    rw [unpack_of_isNaN h]
    rfl
  exact isNaN_of_eq_notANumber hnan

/-! ## Absolute values -/

theorem isNaN_abs (x : Float) : x.abs.isNaN = x.isNaN := by
  change (pack x.toModel.unpack.abs).unpack.isNaN = x.toModel.unpack.isNaN
  cases x.toModel.unpack with
  | notANumber => rfl
  | infinity | zero | finite => exact isNaN_unpack_pack rfl

/-- An absolute value has no sign. -/
theorem isNegative_abs (x : Float) : isNegative x.abs = false := by
  cases hx : x.isNaN with
  | true =>
    rw [eq_of_isNaN ((isNaN_abs x).trans hx) (y := Float.ofModel (pack .notANumber)) rfl]
    decide
  | false =>
    have hunsigned : Unsigned x.toModel.unpack.abs := by
      change x.toModel.unpack.isNaN = false at hx
      cases h : x.toModel.unpack with
      | notANumber =>
        rw [h] at hx
        cases hx
      | infinity | zero | finite => rfl
    exact (isUnsigned_pack hunsigned).isNegative

/-- An absolute value has the magnitude of the double itself. -/
theorem magnitude_abs (x : Float) : magnitude x.abs = magnitude x := by
  have habs : x.abs = Float.ofModel (pack x.toModel.unpack.abs) := rfl
  rcases unpack_cases x with h | ⟨hmag, h⟩ | ⟨hmag, h⟩ | ⟨m, e, hm, h, hmag, he, hlt, hlead, hfin⟩
  · have hnan : x.isNaN = true := by
      change x.toModel.unpack.isNaN = true
      rw [h]
      rfl
    rw [eq_of_isNaN ((isNaN_abs x).trans hnan) hnan]
  · rw [habs, h, hmag, UnpackedFloat.abs]
    decide +kernel
  · rw [habs, h, hmag]
    exact magnitude_pack_zero .positive
  · obtain ⟨t, rfl⟩ : ∃ t : ℕ, e = t - 1074 := ⟨(e + 1074).toNat, by omega⟩
    rw [habs, h, UnpackedFloat.abs, magnitude_pack_finite hm hlt (by omega)]
    omega

/-- An absolute value is its magnitude. -/
theorem abs_eq_of_magnitude_eq (h : magnitude x = magnitude y) : x.abs = y.abs := by
  refine eq_of_orderKey_eq ?_
  rw [orderKey, orderKey, isNegative_abs, isNegative_abs, magnitude_abs, magnitude_abs, h]

theorem abs_eq_self (hx : isNegative x = false) : x.abs = x := by
  refine eq_of_orderKey_eq ?_
  rw [orderKey, orderKey, isNegative_abs, magnitude_abs, hx]

theorem beq_zero_iff (hx : x.isNaN = false) : (x == 0.0) = true ↔ magnitude x = 0 := by
  have hzero : numericKey 0.0 = 0 := by decide +kernel
  rw [beq_iff hx (by decide), hzero, numericKey]
  split_ifs <;> omega

/-- An absolute value is zero where the double itself is. -/
theorem abs_beq_zero (x : Float) : (x.abs == 0.0) = (x == 0.0) := by
  cases hx : x.isNaN with
  | true =>
    rw [beq_eq_false_of_isNaN (.inl hx), beq_eq_false_of_isNaN (.inl ((isNaN_abs x).trans hx))]
  | false =>
    refine Bool.eq_iff_iff.2 ?_
    rw [beq_zero_iff hx, beq_zero_iff ((isNaN_abs x).trans hx), magnitude_abs]

theorem isFinite_of_beq_zero (h : (x == 0.0) = true) : x.isFinite = true := by
  have hzero := (beq_zero_iff (isNaN_eq_false_of_beq h).1).1 h
  have hunpack : x.isFinite = x.toModel.unpack.isFinite := rfl
  rcases unpack_cases x with h' | ⟨hmag, -⟩ | ⟨-, h'⟩ | ⟨m, e, hm, h', -⟩
  · have hnum : x.toModel.unpack.isNaN = false := (isNaN_eq_false_of_beq h).1
    rw [h'] at hnum
    cases hnum
  · exact absurd (hmag.symm.trans hzero) (by decide)
  · rw [hunpack, h']
    rfl
  · rw [hunpack, h']
    rfl

/-- Of doubles without a sign either one may be passed first to the maximum. -/
theorem larger_comm (hx : isNegative x = false) (hy : isNegative y = false) :
    larger x y = larger y x := by
  cases hnx : x.isNaN with
  | true =>
    cases hny : y.isNaN with
    | true => rw [eq_of_isNaN hnx hny]
    | false =>
      rw [larger, larger, hnx, hny, if_neg Bool.false_ne_true, if_pos rfl,
        if_neg (not_lt_of_isNaN (.inr hnx))]
  | false =>
    cases hny : y.isNaN with
    | true =>
      rw [larger, larger, hnx, hny, if_neg Bool.false_ne_true, if_pos rfl,
        if_neg (not_lt_of_isNaN (.inr hny))]
    | false =>
      have hux : IsUnsigned x := ⟨hnx, hx⟩
      have huy : IsUnsigned y := ⟨hny, hy⟩
      rw [larger, larger, hnx, hny, if_neg Bool.false_ne_true, if_neg Bool.false_ne_true]
      split_ifs with hyx hxy hxy
      · rw [huy.lt_iff_orderKey_lt hux] at hyx
        rw [hux.lt_iff_orderKey_lt huy] at hxy
        omega
      · rfl
      · rfl
      · rw [huy.lt_iff_orderKey_lt hux] at hyx
        rw [hux.lt_iff_orderKey_lt huy] at hxy
        exact eq_of_orderKey_eq (by omega)

theorem larger_self (x : Float) : larger x x = x := by
  rw [larger, ite_self, ite_self]

/-! ## Differences turned around -/

/-- Packing puts the sign apart from all else. -/
theorem exists_packComponents {m : ℕ} {e : ℤ} (hm : 0 < m) :
    ∃ exponent mantissa, ∀ s, UnpackedFloat.pack .binary64 (.finite s m e hm) =
      packComponents .binary64 s exponent mantissa := by
  by_cases hlarge : 2 ^ Format.binary64.exponentBits ≤ (e + Format.binary64.exponentBias +
      Format.binary64.mantissaBitsWithoutImplicit).toNat + 1
  · exact ⟨_, _, fun s => if_pos hlarge⟩
  · by_cases hnormal : m.log2 + 1 = Format.binary64.mantissaBits
    · exact ⟨_, _, fun s => (if_neg hlarge).trans (if_pos hnormal)⟩
    · exact ⟨_, _, fun s => (if_neg hlarge).trans (if_neg hnormal)⟩

theorem magnitude_pack_abs (f : UnpackedFloat) :
    magnitude (Float.ofModel (pack f.abs)) = magnitude (Float.ofModel (pack f)) := by
  cases f with
  | notANumber => rfl
  | infinity s => cases s <;> decide +kernel
  | zero s => cases s <;> decide +kernel
  | finite s m e hm =>
    obtain ⟨exponent, mantissa, hpack⟩ := exists_packComponents (e := e) hm
    rw [UnpackedFloat.abs, magnitude_pack, magnitude_pack, hpack, hpack,
      unpackExponent_packComponents, unpackExponent_packComponents, unpackMantissa_packComponents,
      unpackMantissa_packComponents]

theorem abs_round (s : Sign) (m : ℕ) (e : ℤ) : (UnpackedFloat.round .binary64 s m e).abs =
    (UnpackedFloat.round .binary64 .positive m e).abs := by
  dsimp only [UnpackedFloat.round, roundWithAccuracy]
  split_ifs <;> rfl

/-- Neither the sign of a mantissa nor that of a zero is seen by rounding. -/
theorem abs_normalize_neg (n e : ℤ) (s t : Sign) :
    (normalize .binary64 (-n) e s).abs = (normalize .binary64 n e t).abs := by
  rcases lt_trichotomy n 0 with hn | rfl | hn
  · rw [UnpackedFloat.normalize, UnpackedFloat.normalize, compare_lt_iff_lt.2 hn,
      compare_gt_iff_gt.2 (Int.neg_pos.2 hn)]
    exact (abs_round ..).symm
  · rfl
  · rw [UnpackedFloat.normalize, UnpackedFloat.normalize, compare_gt_iff_gt.2 hn,
      compare_lt_iff_lt.2 (Int.neg_neg_iff_pos.2 hn)]
    dsimp only
    rw [neg_neg, abs_round]

theorem abs_sub_unpacked (a b : UnpackedFloat) :
    (a.sub .binary64 b).abs = (b.sub .binary64 a).abs := by
  cases a with
  | notANumber => cases b <;> rfl
  | infinity s =>
    cases b with
    | infinity t => cases s <;> cases t <;> rfl
    | _ => rfl
  | zero s =>
    cases b with
    | zero t => cases s <;> cases t <;> rfl
    | _ => rfl
  | finite s m e hm =>
    cases b with
    | finite t m' e' hm' =>
      dsimp only [UnpackedFloat.sub]
      rw [min_comm, ← neg_sub, abs_normalize_neg]
    | _ => rfl

/-- **A difference that is turned around changes its sign only.** -/
theorem abs_sub_swap (x y : Float) : (x - y).abs = (y - x).abs := by
  refine abs_eq_of_magnitude_eq ?_
  change magnitude (Float.ofModel (pack (UnpackedFloat.sub .binary64 _ _))) =
    magnitude (Float.ofModel (pack (UnpackedFloat.sub .binary64 _ _)))
  rw [← magnitude_pack_abs, abs_sub_unpacked, magnitude_pack_abs]

/-! ## Differences that are numbers -/

theorem isNaN_normalize (n e : ℤ) (s : Sign) : (normalize .binary64 n e s).isNaN = false := by
  rw [UnpackedFloat.normalize]
  split
  · exact isNaN_roundWithAccuracy ..
  · rfl
  · exact isNaN_roundWithAccuracy ..

theorem isNaN_sub_unpacked {a b : UnpackedFloat} (ha : a.isFinite = true) (hb : b.isFinite = true) :
    (a.sub .binary64 b).isNaN = false := by
  cases a with
  | notANumber | infinity => cases ha
  | zero s =>
    cases b with
    | notANumber | infinity => cases hb
    | zero t => cases s <;> cases t <;> rfl
    | finite => rfl
  | finite =>
    cases b with
    | notANumber | infinity => cases hb
    | zero => rfl
    | finite => exact isNaN_normalize ..

/-- **The difference of two finite numbers is a number.** -/
theorem isNaN_sub (hx : x.isFinite = true) (hy : y.isFinite = true) : (x - y).isNaN = false :=
  isNaN_unpack_pack (isNaN_sub_unpacked hx hy)

/-- The difference of a double and itself is zero or nothing. -/
theorem abs_sub_self (hx : x.isFinite = true) : (x - x).abs = 0.0 := by
  change x.toModel.unpack.isFinite = true at hx
  change Float.ofModel
    (pack (pack (x.toModel.unpack.sub .binary64 x.toModel.unpack)).unpack.abs) = 0.0
  have hzero : x.toModel.unpack.sub .binary64 x.toModel.unpack = .zero .positive := by
    cases h : x.toModel.unpack with
    | notANumber | infinity =>
      rw [h] at hx
      cases hx
    | zero s => cases s <;> rfl
    | finite s m e hm =>
      dsimp only [UnpackedFloat.sub]
      rw [sub_self]
      rfl
  rw [hzero]
  decide +kernel

theorem isNaN_sub_self (hx : x.isFinite = false) : (x - x).isNaN = true := by
  change x.toModel.unpack.isFinite = false at hx
  have hnan : x.toModel.unpack.sub .binary64 x.toModel.unpack = .notANumber := by
    cases h : x.toModel.unpack with
    | notANumber => rfl
    | infinity s => cases s <;> rfl
    | zero | finite =>
      rw [h] at hx
      cases hx
  exact isNaN_of_eq_notANumber hnan

/-! ## Differences above zero -/

theorem isNaN_of_isFinite (hx : x.isFinite = true) : x.isNaN = false := by
  change x.toModel.unpack.isFinite = true at hx
  change x.toModel.unpack.isNaN = false
  cases h : x.toModel.unpack with
  | notANumber =>
    rw [h] at hx
    cases hx
  | _ => rfl

/-- The numeric order is that of the values. -/
theorem value_lt_of_lt (hx : x.isNaN = false) (hy : y.isNaN = false) (h : x < y) :
    value x < value y := by
  rw [lt_iff hx hy, numericKey, numericKey] at h
  rw [value_eq hx, value_eq hy]
  have hnonneg := scale_nonneg (magnitude x)
  have hnonneg' := scale_nonneg (magnitude y)
  have hpos {k : ℕ} (hk : 0 < k) : 0 < scale k := scale_zero ▸ strictMono_scale hk
  split_ifs at h ⊢
  · exact neg_lt_neg (strictMono_scale (by omega))
  · rcases Nat.eq_zero_or_pos (magnitude x) with hzero | hx
    · have hy := hpos (k := magnitude y) (by omega)
      linarith
    · linarith [hpos hx]
  · omega
  · exact strictMono_scale (by omega)

theorem finite_cases (hx : x.isFinite = true) : magnitude x < infinityMagnitude ∧
    (x.toModel.unpack = .zero (signOf x) ∧ value x = 0 ∨
      ∃ m e hm, x.toModel.unpack = .finite (signOf x) m e hm ∧
        value x = (signOf x).apply m * 2 ^ e ∧ -1074 ≤ e) := by
  have hnum := isNaN_of_isFinite hx
  change x.toModel.unpack.isFinite = true at hx
  rcases unpack_cases x with h | ⟨-, h⟩ | ⟨hmag, h⟩ | ⟨m, e, hm, h, -, -, -, -, hlt⟩
  · rw [h] at hx
    cases hx
  · rw [h] at hx
    cases hx
  · refine ⟨hmag ▸ by decide, .inl ⟨h, ?_⟩⟩
    rw [value_eq hnum, hmag, scale_zero, neg_zero, ite_self]
  · obtain ⟨hvalue, he, -⟩ := parts_of_unpack h
    exact ⟨hlt, .inr ⟨m, e, hm, h, hvalue, he⟩⟩

/-- The value of a finite double is a multiple of the least one. -/
theorem exists_value_eq (hx : x.isFinite = true) : ∃ n : ℤ, value x = n * 2 ^ (-1074 : ℤ) := by
  obtain ⟨-, ⟨-, hvalue⟩ | ⟨m, e, -, -, hvalue, he⟩⟩ := finite_cases hx
  · exact ⟨0, by rw [hvalue, Int.cast_zero, zero_mul]⟩
  · obtain ⟨t, rfl⟩ : ∃ t : ℕ, e = t - 1074 := ⟨(e + 1074).toNat, by omega⟩
    refine ⟨(signOf x).apply m * 2 ^ t, ?_⟩
    rw [hvalue, sub_eq_add_neg, zpow_add₀ two_ne_zero, zpow_natCast, Int.cast_mul, Int.cast_pow,
      Int.cast_two, mul_assoc]

/-- Finite doubles with different values are at least as far apart as zero and the least one. -/
theorem least_le_value_sub (hx : x.isFinite = true) (hy : y.isFinite = true)
    (h : value y < value x) : 2 ^ (-1074 : ℤ) ≤ value x - value y := by
  obtain ⟨m, hm⟩ := exists_value_eq hx
  obtain ⟨n, hn⟩ := exists_value_eq hy
  have hunit := two_zpow_pos (-1074)
  rw [hm, hn] at h ⊢
  have hlt : n < m := by exact_mod_cast lt_of_mul_lt_mul_right h hunit.le
  have hstep : (1 : ℚ) ≤ m - n := by
    have hle : (n : ℚ) + 1 ≤ m := by exact_mod_cast hlt
    linarith
  calc (2 : ℚ) ^ (-1074 : ℤ) = 1 * 2 ^ (-1074 : ℤ) := (one_mul _).symm
    _ ≤ (m - n) * 2 ^ (-1074 : ℤ) := mul_le_mul_of_nonneg_right hstep hunit.le
    _ = m * 2 ^ (-1074 : ℤ) - n * 2 ^ (-1074 : ℤ) := sub_mul ..

theorem apply_shiftLeft (s : Sign) (m k : ℕ) (e : ℤ) :
    (s.apply (m <<< k : ℕ) : ℚ) * 2 ^ e = s.apply m * 2 ^ (e + k) := by
  rw [Nat.shiftLeft_eq, zpow_add₀ two_ne_zero, zpow_natCast]
  cases s <;> simp only [Sign.apply] <;> push_cast <;> ring

/-- Mantissas are brought to one exponent before they are subtracted, and nothing is lost by that. -/
theorem isNearest_sub_finite {m₁ m₂ : ℕ} {e₁ e₂ : ℤ} {s : Sign} (h₁ : 0 < m₁) (h₂ : 0 < m₂)
    (hlt : (s.apply m₂ : ℚ) * 2 ^ e₂ < m₁ * 2 ^ e₁) :
    IsUnsigned (Float.ofModel (pack (UnpackedFloat.sub .binary64 (.finite .positive m₁ e₁ h₁)
        (.finite s m₂ e₂ h₂)))) ∧
      IsNearest (Float.ofModel (pack (UnpackedFloat.sub .binary64 (.finite .positive m₁ e₁ h₁)
        (.finite s m₂ e₂ h₂)))) (m₁ * 2 ^ e₁ - s.apply m₂ * 2 ^ e₂) := by
  dsimp only [UnpackedFloat.sub, decreaseExponent]
  generalize he : min e₁ e₂ = e
  obtain ⟨k₁, rfl⟩ : ∃ k : ℕ, e₁ = e + k := ⟨(e₁ - e).toNat, by omega⟩
  obtain ⟨k₂, rfl⟩ : ∃ k : ℕ, e₂ = e + k := ⟨(e₂ - e).toNat, by omega⟩
  rw [add_sub_cancel_left, add_sub_cancel_left, Int.toNat_natCast, Int.toNat_natCast]
  generalize hn : Sign.positive.apply (m₁ <<< k₁ : ℕ) - s.apply (m₂ <<< k₂ : ℕ) = n
  have hvalue : (n : ℚ) * 2 ^ e = m₁ * 2 ^ (e + k₁) - s.apply m₂ * 2 ^ (e + k₂) := by
    rw [← hn, Int.cast_sub, sub_mul, apply_shiftLeft, apply_shiftLeft]
    rfl
  have hpos : 0 < n := by
    have hproduct : (0 : ℚ) < n * 2 ^ e := hvalue ▸ sub_pos.2 hlt
    exact_mod_cast (mul_pos_iff_of_pos_right (two_zpow_pos e)).1 hproduct
  obtain ⟨n, rfl⟩ := Int.eq_ofNat_of_zero_le hpos.le
  rw [← hvalue, UnpackedFloat.normalize, compare_gt_iff_gt.2 hpos]
  exact ⟨isUnsigned_pack (unsigned_roundWithAccuracy ..),
    isNearest_round (Int.natCast_pos.1 hpos) e⟩

/-- A finite double is nearest to its own value. -/
theorem isNearest_value (hx : x.isNaN = false) : IsNearest x (value x) where
  isNaN := hx
  closest y _ := by
    rw [sub_self, abs_zero]
    exact abs_nonneg _
  even y _ hne htie := by
    rw [sub_self, abs_zero, abs_eq_zero, sub_eq_zero] at htie
    exact absurd htie hne

/-- **Differences above zero are rounded to the nearest double.** -/
theorem IsPositive.isNearest_sub (hx : IsPositive x) (hy : y.isFinite = true)
    (h : value y < value x) : IsUnsigned (x - y) ∧ IsNearest (x - y) (value x - value y) := by
  obtain ⟨m₁, e₁, h₁, hunpack, hvalue, -⟩ := hx.exists_unpack
  have hsub : x - y = Float.ofModel (pack (UnpackedFloat.sub .binary64 x.toModel.unpack
    y.toModel.unpack)) := rfl
  obtain ⟨-, ⟨hunpack', hvalue'⟩ | ⟨m₂, e₂, h₂, hunpack', hvalue', -⟩⟩ := finite_cases hy
  · -- Nothing is subtracted, and a double is nearest to itself.
    have hunsigned : IsUnsigned x := unsigned_unpack_iff.1 (by rw [hunpack]; rfl)
    have hself : x - y = x := calc
      x - y = Float.ofModel (pack x.toModel.unpack.abs) := by rw [hsub, hunpack', hunpack]; rfl
      _ = x := abs_eq_self hunsigned.isNegative
    rw [hself, hvalue', sub_zero]
    exact ⟨hunsigned, isNearest_value hunsigned.isNaN⟩
  · rw [hvalue, hvalue'] at h ⊢
    rw [hsub, hunpack, hunpack']
    exact isNearest_sub_finite h₁ h₂ h

/-- A difference above zero is rounded neither down to zero nor, as long as it is not half the way
beyond the last number, up to an infinity. -/
theorem IsPositive.sub (hx : IsPositive x) (hy : y.isFinite = true) (h : value y < value x)
    (hsmall : 2 * (value x - value y) < scale (infinityMagnitude - 1) + scale infinityMagnitude) :
    IsPositive (x - y) := by
  obtain ⟨hunsigned, hnearest⟩ := hx.isNearest_sub hy h
  have hplace := hnearest.nearestPlace hunsigned
  have hleast : scale 1 ≤ value x - value y := by
    have hone : scale 1 = 2 ^ (-1074 : ℤ) := by
      have hscale := scale_place (t := 0) (r := 1) (by norm_num) (.inl rfl)
      rwa [Nat.zero_mul, Nat.zero_add, Nat.cast_one, one_mul, Nat.cast_zero, zero_sub] at hscale
    exact hone ▸ least_le_value_sub hx.isFinite hy h
  have hlow : 1 ≤ magnitude (x - y) := hplace.le_of_scale_le (by decide) hleast
  have hhigh := hplace.lt_infinityMagnitude (magnitude_le hunsigned.isNaN) hsmall
  refine isPositive_of_value hunsigned ?_ ?_ <;> rw [hunsigned.value_eq_scale]
  · exact scale_zero ▸ strictMono_scale hlow
  · exact strictMono_scale hhigh

end SchedAudit.Binary64
