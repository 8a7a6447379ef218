import Mathlib
import SchedAudit.Proofs.Binary64.Value
import SchedAudit.Proofs.Decimal.Reading

/-!
# Rounding finds the nearest double

`Float` rounds a mantissa with two more bits: one for the half of a unit, and one for whatever is below
that. They tell where the number is (`Locates`), at a mantissa or between two: halving keeps them right
(`Locates.halve`), and where the shifting ends they decide which integer is nearest
(`Locates.roundsTo`). Packing puts mantissa and exponent in their place of the scale
(`magnitude_pack_finite`), so what is rounded is the nearest double (`isNearest_roundWithAccuracy`).

Products, quotients and conversions of positive numbers are rounded once, from enough bits; so they are
nearest to what they should be.
-/

namespace SchedAudit.Binary64

open Float.Model UnpackedFloat

/-! ## Packing -/

theorem magnitude_pack (f : UnpackedFloat) : magnitude (Float.ofModel (pack f)) =
    (@unpackExponent .binary64 (f.pack .binary64)).toNat * 2 ^ 52 +
      (@unpackMantissa .binary64 (f.pack .binary64)).toNat := by
  have hmagnitude : magnitude (Float.ofModel (pack f)) = (f.pack .binary64).toNat % 2 ^ 63 := rfl
  rw [hmagnitude, toNat_unpackExponent, toNat_unpackMantissa]
  omega

theorem magnitude_pack_zero (s : Sign) : magnitude (Float.ofModel (pack (.zero s))) = 0 := by
  cases s <;> decide +kernel

/-- Packing puts a mantissa and an exponent in their place, or cuts them off at the infinities. -/
theorem magnitude_pack_finite {m t : ℕ} (hm : 0 < m) (hlt : m < 2 ^ 53) (hlead : t = 0 ∨ 2 ^ 52 ≤ m)
    (s : Sign) : magnitude (Float.ofModel (pack (.finite s m (t - 1074) hm))) =
      min infinityMagnitude (t * 2 ^ 52 + m) := by
  have hlog : m.log2 = 52 ↔ 2 ^ 52 ≤ m := by
    have hlow := Nat.le_log2 hm.ne' (k := 52)
    have hhigh := (Nat.log2_lt hm.ne').2 hlt
    omega
  have hbiased : ((t : ℤ) - 1074 + Format.binary64.exponentBias +
      Format.binary64.mantissaBitsWithoutImplicit).toNat = t + 1 := by
    change ((t : ℤ) - 1074 + 1023 + 52).toNat = t + 1
    omega
  rw [magnitude_pack, UnpackedFloat.pack, infinityMagnitude]
  simp only [hbiased]
  split_ifs with hlarge hnormal
  · have hlarge : 2048 ≤ t + 1 + 1 := hlarge
    rw [packedInfinity, unpackExponent_packComponents, unpackMantissa_packComponents,
      BitVec.neg_one_eq_allOnes, BitVec.toNat_allOnes]
    simp
    omega
  · have hsmall : t + 1 + 1 < 2048 := not_le.1 hlarge
    have hbits := hlog.1 (Nat.succ.inj hnormal)
    rw [unpackExponent_packComponents, unpackMantissa_packComponents, BitVec.toNat_ofNat,
      BitVec.toNat_ofNat]
    omega
  · have hbits : ¬2 ^ 52 ≤ m := fun h => hnormal (congrArg Nat.succ (hlog.2 h))
    obtain rfl : t = 0 := hlead.resolve_right hbits
    rw [unpackExponent_packComponents, unpackMantissa_packComponents, BitVec.toNat_ofNat,
      BitVec.toNat_ofNat]
    omega

/-- Every place of the scale is that of an unsigned double. -/
theorem exists_isUnsigned {k : ℕ} (hk : k ≤ infinityMagnitude) :
    ∃ x : Float, IsUnsigned x ∧ magnitude x = k := by
  obtain ⟨t, r, rfl, hr, hlead⟩ := exists_place k
  rcases Nat.eq_zero_or_pos r with rfl | hpos
  · refine ⟨Float.ofModel (pack (.zero .positive)), isUnsigned_pack rfl, ?_⟩
    rw [magnitude_pack_zero]
    omega
  · refine ⟨Float.ofModel (pack (.finite .positive r (t - 1074) hpos)), isUnsigned_pack rfl, ?_⟩
    rw [magnitude_pack_finite hpos hr hlead, min_eq_right hk]

/-! ## Mantissas with two more bits -/

theorem mantissa_ofMantissaAndAccuracy (m : Nat) (a : Accuracy) :
    (ExtendedMantissa.ofMantissaAndAccuracy m a).mantissa = m := by
  rcases a with _ | (_ | _ | _) <;> rfl

/-- Where an extended mantissa says that a number is: at the mantissa, in the middle before the next
one, or strictly between these. -/
def Locates (em : ExtendedMantissa) (x : ℚ) : Prop :=
  match em.roundBit, em.stickyBit with
  | false, false => x = em.mantissa
  | false, true => em.mantissa < x ∧ x < em.mantissa + 1 / 2
  | true, false => x = em.mantissa + 1 / 2
  | true, true => em.mantissa + 1 / 2 < x ∧ x < em.mantissa + 1

namespace Locates

variable {em : ExtendedMantissa} {x : ℚ}

theorem bounds (h : Locates em x) : em.mantissa ≤ x ∧ x < em.mantissa + 1 := by
  obtain ⟨m, round, sticky⟩ := em
  cases round <;> cases sticky <;> simp only [Locates] at h ⊢ <;> constructor <;> linarith

/-- Half a number has half the mantissa, and its bits move down. -/
theorem halve (h : Locates em x) : Locates em.shiftRightOne (x / 2) := by
  obtain ⟨m, round, sticky⟩ := em
  -- The bit that the mantissa loses is the new half.
  obtain ⟨k, rfl | rfl⟩ := m.even_or_odd'
  · have hhalf : 2 * k / 2 = k := by omega
    have hbit : (2 * k % 2 != 0) = false := by simp
    cases round <;> cases sticky <;>
      simp only [Locates, ExtendedMantissa.shiftRightOne, hhalf, hbit, Bool.or_false,
        Bool.or_true] at h ⊢ <;> push_cast at h ⊢ <;> first | linarith | constructor <;> linarith
  · have hhalf : (2 * k + 1) / 2 = k := by omega
    have hbit : ((2 * k + 1) % 2 != 0) = true := by simp
    cases round <;> cases sticky <;>
      simp only [Locates, ExtendedMantissa.shiftRightOne, hhalf, hbit, Bool.or_false,
        Bool.or_true] at h ⊢ <;> push_cast at h ⊢ <;> first | linarith | constructor <;> linarith

theorem shift (h : Locates em x) (k : ℕ) : Locates (em >>> k) (x / 2 ^ k) := by
  change Locates (k.repeat ExtendedMantissa.shiftRightOne em) _
  induction k with
  | zero => simpa [Nat.repeat] using h
  | succ k ih =>
    rw [pow_succ, ← div_div]
    exact ih.halve

/-- The two bits decide which integer is nearest. -/
theorem roundsTo (h : Locates em x) : RoundsTo x em.roundedMantissa := by
  obtain ⟨m, round, sticky⟩ := em
  have hsucc : ((m + 1 : ℕ) : ℚ) = m + 1 := Nat.cast_succ m
  cases round <;> cases sticky <;>
    simp only [Locates, ExtendedMantissa.roundedMantissa, ExtendedMantissa.accuracy,
      Accuracy.roundToNearestEven] at h ⊢
  · exact ⟨by linarith, by linarith, fun htie => by rcases htie with htie | htie <;> linarith⟩
  · exact ⟨by linarith, by linarith, fun htie => by rcases htie with htie | htie <;> linarith⟩
  · -- a tie, which goes to the even one of the neighbours
    rcases Nat.mod_two_eq_zero_or_one m with hm | hm
    · rw [hm, Nat.add_zero]
      exact ⟨by linarith, by linarith, fun _ => hm⟩
    · rw [hm]
      exact ⟨by linarith, by linarith, fun _ => by omega⟩
  · exact ⟨by linarith, by linarith, fun htie => by rcases htie with htie | htie <;> linarith⟩

end Locates

/-! ## Rounding -/

/-- The exponent that a mantissa with an exponent is rounded to. -/
def exponentFor (m : ℕ) (e : ℤ) : ℤ := max (-1074) (e + m.log2 - 52)

theorem targetExponent_eq (m : ℕ) (e : ℤ) :
    Format.binary64.targetExponent (totalExponent m e) = exponentFor m e := by
  simp only [Format.targetExponent, totalExponent, Format.mantissaBits, Format.minExponent,
    exponentFor]
  norm_num
  omega

/-- The exponent that is left is the one that was wanted, if it was not too large. -/
theorem shiftToTargetExponent_eq {m : ℕ} {e : ℤ} (a : Accuracy) (he : e ≤ exponentFor m e) :
    shiftToTargetExponent .binary64 m e a =
      (ExtendedMantissa.ofMantissaAndAccuracy m a >>> (exponentFor m e - e).toNat,
        exponentFor m e) := by
  rw [shiftToTargetExponent, shiftToExponent, targetExponent_eq]
  refine Prod.ext rfl ?_
  change e + ((exponentFor m e - e).toNat : ℤ) = _
  omega

theorem log2_lt_of_lt {n k : Nat} (hk : 0 < k) (hn : n < 2 ^ k) : n.log2 < k := by
  by_cases hzero : n = 0
  · simpa [hzero] using hk
  · exact (Nat.log2_lt hzero).2 hn

/-- A mantissa that has overflowed is shifted once more, which does not move it on the scale. -/
theorem magnitude_pack_finish {r t : ℕ} (hr : r ≤ 2 ^ 53) (hlead : t = 0 ∨ 2 ^ 52 ≤ r) (s : Sign) :
    magnitude (Float.ofModel (pack (
      if h : (shiftToTargetExponent .binary64 r (t - 1074) .exact).1.mantissa = 0 then .zero s
      else .finite s _ (shiftToTargetExponent .binary64 r (t - 1074) .exact).2
        (Nat.pos_of_ne_zero h)))) = min infinityMagnitude (t * 2 ^ 52 + r) := by
  generalize hshift : shiftToTargetExponent .binary64 r (t - 1074) .exact = shifted
  rcases lt_or_eq_of_le hr with hlt | rfl
  · have hexponent : exponentFor r (t - 1074) = t - 1074 := by
      have hlog := log2_lt_of_lt (by decide) hlt
      have hleading (h : 2 ^ 52 ≤ r) : 52 ≤ r.log2 := (Nat.le_log2 (by omega)).2 h
      rw [exponentFor]
      omega
    rw [shiftToTargetExponent_eq _ hexponent.ge, hexponent, sub_self] at hshift
    subst hshift
    change magnitude (Float.ofModel (pack (if h : r = 0 then .zero s else .finite s r (t - 1074) _))) = _
    split_ifs with hzero
    · obtain rfl : t = 0 := hlead.resolve_right (by omega)
      rw [magnitude_pack_zero, hzero]
      rfl
    · exact magnitude_pack_finite _ hlt hlead s
  · have hexponent : exponentFor (2 ^ 53) (t - 1074) = t - 1074 + 1 := by
      rw [exponentFor, Nat.log2_two_pow]
      omega
    rw [shiftToTargetExponent_eq _ (by omega), hexponent, add_sub_cancel_left] at hshift
    subst hshift
    have hplace := magnitude_pack_finite (m := 2 ^ 52) (t := t + 1) (by norm_num) (by norm_num)
      (.inr le_rfl) s
    rw [Nat.cast_succ, add_sub_right_comm] at hplace
    refine Eq.trans ?_ (hplace.trans (congrArg _ (by ring)))
    rfl

/-- Before it is rounded, a mantissa is shifted below its bound. It keeps a leading bit, unless its
exponent is the least one. -/
theorem shifted_bounds {m t k : ℕ} {e : ℤ} {x : ℚ} (hx : m ≤ x ∧ x < m + 1)
    (ht : exponentFor m e = t - 1074) (hk : e + k = t - 1074) :
    x / 2 ^ k < 2 ^ 53 ∧ (t = 0 ∨ 2 ^ 52 ≤ x / 2 ^ k) := by
  have hpow : (0 : ℚ) < 2 ^ k := pow_pos two_pos k
  rw [exponentFor] at ht
  rw [div_lt_iff₀ hpow, le_div_iff₀ hpow, ← pow_add, ← pow_add]
  constructor
  · have hm : m + 1 ≤ 2 ^ (53 + k) :=
      (Nat.succ_le_of_lt Nat.lt_log2_self).trans (Nat.pow_le_pow_right two_pos (by omega))
    have hm' : (m + 1 : ℚ) ≤ 2 ^ (53 + k) := by exact_mod_cast hm
    exact hx.2.trans_le hm'
  · rcases Nat.eq_zero_or_pos t with hzero | hpos
    · exact .inl hzero
    · have hlog : 52 + k = m.log2 := by omega
      have hne : m ≠ 0 := by
        rintro rfl
        simp at hlog
      have hm : (2 : ℚ) ^ m.log2 ≤ m := by exact_mod_cast Nat.log2_self_le hne
      rw [hlog]
      exact .inr (hm.trans hx.1)

theorem magnitude_roundWithAccuracy {m t k : ℕ} {e : ℤ} {a : Accuracy} (s : Sign)
    (ht : exponentFor m e = t - 1074) (hk : e + k = t - 1074)
    (hr : (ExtendedMantissa.ofMantissaAndAccuracy m a >>> k).roundedMantissa ≤ 2 ^ 53)
    (hlead : t = 0 ∨ 2 ^ 52 ≤ (ExtendedMantissa.ofMantissaAndAccuracy m a >>> k).roundedMantissa) :
    magnitude (Float.ofModel (pack (roundWithAccuracy .binary64 s m e a))) =
      min infinityMagnitude
        (t * 2 ^ 52 + (ExtendedMantissa.ofMantissaAndAccuracy m a >>> k).roundedMantissa) := by
  have hshift : (exponentFor m e - e).toNat = k := by omega
  rw [roundWithAccuracy, shiftToTargetExponent_eq a (by omega), hshift, ht]
  exact magnitude_pack_finish hr hlead s

/-- **Rounding finds the nearest double**, if there are enough bits to begin with. -/
theorem isNearest_roundWithAccuracy {m : ℕ} {e : ℤ} {a : Accuracy} {x : ℚ}
    (hlocates : Locates (ExtendedMantissa.ofMantissaAndAccuracy m a) x) (he : e ≤ exponentFor m e) :
    IsNearest (Float.ofModel (pack (roundWithAccuracy .binary64 .positive m e a))) (x * 2 ^ e) := by
  obtain ⟨t, ht⟩ : ∃ t : ℕ, exponentFor m e = t - 1074 :=
    ⟨(exponentFor m e + 1074).toNat, by rw [exponentFor]; omega⟩
  obtain ⟨k, hk⟩ : ∃ k : ℕ, e + k = t - 1074 := ⟨(exponentFor m e - e).toNat, by omega⟩
  have hbounds := hlocates.bounds
  rw [mantissa_ofMantissaAndAccuracy] at hbounds
  have hnonneg : 0 ≤ x := (Nat.cast_nonneg m).trans hbounds.1
  obtain ⟨hlt, hlead⟩ := shifted_bounds hbounds ht hk
  have hrounds := (hlocates.shift k).roundsTo
  have hnearest := nearest_place (div_nonneg hnonneg (pow_pos two_pos k).le) hrounds hlt hlead
  have hmagnitude := magnitude_roundWithAccuracy .positive ht hk
    (hrounds.le_of_lt (by exact_mod_cast hlt))
    (hlead.imp_right fun h => hrounds.le_of_le (by exact_mod_cast h))
  have hvalue : x / 2 ^ k * 2 ^ ((t : ℤ) - 1074) = x * 2 ^ e := by
    rw [← hk, zpow_add₀ two_ne_zero, zpow_natCast]
    field_simp
  have hplace := hnearest.cut
  rw [hvalue, ← hmagnitude] at hplace
  have hunsigned := isUnsigned_pack (unsigned_roundWithAccuracy m e a)
  exact hplace.isNearest (mul_nonneg hnonneg (two_zpow_pos e).le) hunsigned.isNaN
    hunsigned.isNegative

theorem locates_exact (m : ℕ) : Locates (ExtendedMantissa.ofMantissaAndAccuracy m .exact) m :=
  rfl

theorem log2_add_le {n : ℕ} (hn : 0 < n) (s : ℕ) : n.log2 + s ≤ (n * 2 ^ s).log2 := by
  have hpow : 2 ^ (n.log2 + s) ≤ n * 2 ^ s := by
    rw [Nat.pow_add]
    exact Nat.mul_le_mul_right _ (Nat.log2_self_le hn.ne')
  exact (Nat.le_log2 (Nat.mul_pos hn (Nat.two_pow_pos s)).ne').2 hpow

/-- A mantissa that lacks bits is shifted to get them, and rounded then. -/
theorem isNearest_round {n : ℕ} (hn : 0 < n) (e : ℤ) :
    IsNearest (Float.ofModel (pack (UnpackedFloat.round .binary64 .positive n e))) (n * 2 ^ e) := by
  rw [UnpackedFloat.round, decreaseExponent, targetExponent_eq]
  dsimp only
  rw [Nat.shiftLeft_eq]
  generalize hs : (e - exponentFor n e).toNat = s
  have he : e - s ≤ exponentFor (n * 2 ^ s) (e - s) := by
    have hlog := log2_add_le hn s
    rw [exponentFor] at hs ⊢
    omega
  have hvalue : ((n * 2 ^ s : ℕ) : ℚ) * 2 ^ (e - s : ℤ) = n * 2 ^ e := by
    rw [zpow_sub₀ two_ne_zero, zpow_natCast]
    push_cast
    field_simp
  have h := isNearest_roundWithAccuracy (locates_exact (n * 2 ^ s)) he
  rwa [hvalue] at h

/-! ## Products and quotients -/

/-- A product of mantissas is exact before it is rounded. -/
theorem isNearest_mul_finite {m₁ m₂ : ℕ} {e₁ e₂ : ℤ} (h₁ : 0 < m₁) (h₂ : 0 < m₂)
    (he : e₁ + e₂ ≤ exponentFor (m₁ * m₂) (e₁ + e₂)) :
    IsNearest (Float.ofModel (pack (UnpackedFloat.mul .binary64 (.finite .positive m₁ e₁ h₁)
      (.finite .positive m₂ e₂ h₂)))) (m₁ * 2 ^ e₁ * (m₂ * 2 ^ e₂)) := by
  have h := isNearest_roundWithAccuracy (locates_exact (m₁ * m₂)) he
  have hvalue : ((m₁ * m₂ : ℕ) : ℚ) * 2 ^ (e₁ + e₂) = m₁ * 2 ^ e₁ * (m₂ * 2 ^ e₂) := by
    rw [zpow_add₀ two_ne_zero]
    push_cast
    ring
  rwa [hvalue] at h

/-- What a fraction tells of the bits below a mantissa. -/
theorem locates_accuracyOfFraction (mantissa : ℕ) {num den : ℕ} (h : num < den) :
    Locates (ExtendedMantissa.ofMantissaAndAccuracy mantissa (accuracyOfFraction num den))
      (mantissa + num / den) := by
  have hden : (0 : ℚ) < den := Nat.cast_pos.2 (Nat.zero_lt_of_lt h)
  have hlt : (num : ℚ) / den < 1 := (div_lt_one hden).2 (Nat.cast_lt.2 h)
  rw [accuracyOfFraction]
  split_ifs with hzero
  · rw [hzero]
    simp [Locates, ExtendedMantissa.ofMantissaAndAccuracy]
  · have hpos : (0 : ℚ) < num / den := div_pos (Nat.cast_pos.2 (Nat.pos_of_ne_zero hzero)) hden
    rcases lt_trichotomy (2 * num) den with hhalf | hhalf | hhalf
    · have hless : (num : ℚ) / den < 1 / 2 := by
        have hcast : (2 * num : ℚ) < den := by exact_mod_cast hhalf
        rw [div_lt_div_iff₀ hden two_pos]
        linarith
      have hbits : (mantissa : ℚ) < mantissa + num / den ∧
          (mantissa + num / den : ℚ) < mantissa + 1 / 2 := ⟨by linarith, by linarith⟩
      rw [compare_lt_iff_lt.2 hhalf]
      exact hbits
    · have hequal : (num : ℚ) / den = 1 / 2 := by
        have hcast : (2 * num : ℚ) = den := by exact_mod_cast hhalf
        rw [div_eq_div_iff hden.ne' two_ne_zero]
        linarith
      rw [compare_eq_iff_eq.2 hhalf, hequal]
      rfl
    · have hmore : 1 / 2 < (num : ℚ) / den := by
        have hcast : (den : ℚ) < 2 * num := by exact_mod_cast hhalf
        rw [div_lt_div_iff₀ two_pos hden]
        linarith
      have hbits : (mantissa + 1 / 2 : ℚ) < mantissa + num / den ∧
          (mantissa + num / den : ℚ) < mantissa + 1 := ⟨by linarith, by linarith⟩
      rw [compare_gt_iff_gt.2 hhalf]
      exact hbits

/-- The remainder of a division tells the bits below the quotient. -/
theorem locates_div (m : ℕ) {n : ℕ} (hn : 0 < n) :
    Locates (ExtendedMantissa.ofMantissaAndAccuracy (m / n) (accuracyOfFraction (m % n) n))
      (m / n) := by
  have hn' : (n : ℚ) ≠ 0 := Nat.cast_ne_zero.2 hn.ne'
  have hdiv : (m : ℚ) / n = (m / n : ℕ) + (m % n : ℕ) / n := by
    have hm : (m : ℚ) = (m / n : ℕ) * n + (m % n : ℕ) := by exact_mod_cast (Nat.div_add_mod' m n).symm
    rw [div_eq_iff hn', add_mul, div_mul_cancel₀ _ hn', ← hm]
  rw [hdiv]
  exact locates_accuracyOfFraction _ (Nat.mod_lt m hn)

/-- The mantissa that is divided was shifted far enough to leave a quotient of all bits. -/
theorem divCore_bits {m₁ m₂ s : ℕ} (h₁ : 0 < m₁) (h₂ : 0 < m₂)
    (hs : m₂.log2 + 53 ≤ m₁.log2 + s) : 52 ≤ (m₁ <<< s / m₂).log2 := by
  have hle : 2 ^ 52 * m₂ ≤ m₁ <<< s := calc
    2 ^ 52 * m₂ ≤ 2 ^ 52 * 2 ^ (m₂.log2 + 1) := Nat.mul_le_mul_left _ Nat.lt_log2_self.le
    _ = 2 ^ (m₂.log2 + 53) := by rw [← Nat.pow_add]; congr 1; omega
    _ ≤ 2 ^ (m₁.log2 + s) := Nat.pow_le_pow_right two_pos hs
    _ = 2 ^ m₁.log2 * 2 ^ s := Nat.pow_add ..
    _ ≤ m₁ * 2 ^ s := Nat.mul_le_mul_right _ (Nat.log2_self_le h₁.ne')
    _ = m₁ <<< s := (Nat.shiftLeft_eq m₁ s).symm
  have hquotient : 2 ^ 52 ≤ m₁ <<< s / m₂ := (Nat.le_div_iff_mul_le h₂).2 hle
  exact (Nat.le_log2 (by omega)).2 hquotient

/-- A quotient has enough bits, and the remainder tells the others. -/
theorem isNearest_div_finite {m₁ m₂ : ℕ} {e₁ e₂ : ℤ} (h₁ : 0 < m₁) (h₂ : 0 < m₂) :
    IsNearest (Float.ofModel (pack (UnpackedFloat.div .binary64 (.finite .positive m₁ e₁ h₁)
      (.finite .positive m₂ e₂ h₂)))) (m₁ * 2 ^ e₁ / (m₂ * 2 ^ e₂)) := by
  have htarget : Format.binary64.targetExponent (totalExponent m₁ e₁ - totalExponent m₂ e₂) =
      max (-1074) (m₁.log2 + e₁ - m₂.log2 - e₂ - 53) := by
    simp only [Format.targetExponent, totalExponent, Format.mantissaBits, Format.minExponent]
    norm_num
    omega
  rw [UnpackedFloat.div, divCore, htarget]
  dsimp only
  generalize htarget : min (e₁ - e₂) (max (-1074) (m₁.log2 + e₁ - m₂.log2 - e₂ - 53)) = e
  obtain ⟨s, hs⟩ : ∃ s : ℕ, e₁ - e₂ - e = s := ⟨(e₁ - e₂ - e).toNat, by omega⟩
  rw [hs, Int.toNat_natCast]
  have he : e ≤ exponentFor (m₁ <<< s / m₂) e := by
    have hbits := divCore_bits h₁ h₂ (s := s)
    rw [exponentFor]
    omega
  have h := isNearest_roundWithAccuracy (locates_div (m₁ <<< s) h₂) he
  have hvalue : ((m₁ <<< s : ℕ) : ℚ) / m₂ * 2 ^ e = m₁ * 2 ^ e₁ / (m₂ * 2 ^ e₂) := by
    have hshift : (s : ℤ) = e₁ - e₂ - e := hs.symm
    have hexponent : e₁ = s + e + e₂ := by omega
    rw [Nat.shiftLeft_eq, hexponent, zpow_add₀ two_ne_zero, zpow_add₀ two_ne_zero, zpow_natCast]
    push_cast
    have he₂ := (two_zpow_pos e₂).ne'
    field_simp
  rwa [hvalue] at h

/-! ## Doubles -/

section Doubles

variable {x y : Float} {q : ℚ} {k : ℕ}

theorem IsUnsigned.value_eq_scale (hx : IsUnsigned x) : value x = scale (magnitude x) := by
  rw [value_eq hx.isNaN, hx.isNegative]
  rfl

theorem IsUnsigned.eq_of_magnitude_eq (hx : IsUnsigned x) (hy : IsUnsigned y)
    (h : magnitude x = magnitude y) : x = y := by
  refine eq_of_orderKey_eq ?_
  rw [orderKey, orderKey, hx.isNegative, hy.isNegative, h]

theorem IsNearest.nearestPlace (h : IsNearest x q) (hx : IsUnsigned x) :
    NearestPlace q (magnitude x) where
  closest j hj := by
    obtain ⟨y, hy, rfl⟩ := exists_isUnsigned hj
    rw [← hx.value_eq_scale, ← hy.value_eq_scale]
    exact h.closest y hy.isNaN
  even j hj hne htie := by
    obtain ⟨y, hy, rfl⟩ := exists_isUnsigned hj
    rw [← hx.value_eq_scale, ← hy.value_eq_scale] at htie
    refine h.even y hy.isNaN (fun heq => hne ?_) htie
    rw [hx.value_eq_scale, hy.value_eq_scale] at heq
    exact strictMono_scale.injective heq

/-- **There is one unsigned double nearest to a number.** -/
theorem IsNearest.unique (hx : IsNearest x q) (hy : IsNearest y q) (hux : IsUnsigned x)
    (huy : IsUnsigned y) : x = y :=
  hux.eq_of_magnitude_eq huy <| (hx.nearestPlace hux).unique (hy.nearestPlace huy)
    (magnitude_le hux.isNaN) (magnitude_le huy.isNaN)

/-- What a double can hold is not rounded. -/
theorem IsNearest.value_eq (h : IsNearest x (scale k)) (hk : k ≤ infinityMagnitude) :
    value x = scale k := by
  obtain ⟨y, hy, rfl⟩ := exists_isUnsigned hk
  have hclosest := h.closest y hy.isNaN
  rw [hy.value_eq_scale, sub_self, abs_zero] at hclosest
  exact sub_eq_zero.1 (abs_eq_zero.1 (le_antisymm hclosest (abs_nonneg _)))

theorem isPositive_of_value (hx : IsUnsigned x) (hpos : 0 < value x)
    (hfinite : value x < scale infinityMagnitude) : IsPositive x := by
  rw [hx.value_eq_scale] at hpos hfinite
  have hsign : signOf x = .positive := by rw [signOf, hx.isNegative]; rfl
  rcases unpack_cases x with h | ⟨hmag, -⟩ | ⟨hmag, -⟩ | ⟨m, e, hm, h, -⟩
  · have hnum : x.toModel.unpack.isNaN = false := hx.isNaN
    rw [h] at hnum
    cases hnum
  · rw [hmag] at hfinite
    exact absurd hfinite (lt_irrefl _)
  · rw [hmag, scale_zero] at hpos
    exact absurd hpos (lt_irrefl _)
  · exact ⟨m, e, hm, by rw [h, hsign]⟩

/-- What the parts of a finite double are. -/
theorem parts_of_unpack {s : Sign} {m : ℕ} {e : ℤ} {hm : 0 < m}
    (hx : x.toModel.unpack = .finite s m e hm) :
    value x = s.apply m * 2 ^ e ∧ -1074 ≤ e ∧ (e = -1074 ∨ 2 ^ 52 ≤ m) := by
  have hnum : x.isNaN = false := by
    change x.toModel.unpack.isNaN = false
    rw [hx]
    rfl
  rcases unpack_cases x with h | ⟨-, h⟩ | ⟨-, h⟩ | ⟨m', e', hm', h, hmag, he, hlt, hlead, -⟩
  · cases h.symm.trans hx
  · cases h.symm.trans hx
  · cases h.symm.trans hx
  · obtain ⟨hsign, rfl, rfl⟩ := UnpackedFloat.finite.inj (h.symm.trans hx)
    obtain ⟨t, ht⟩ : ∃ t : ℕ, e' + 1074 = t := ⟨(e' + 1074).toNat, by omega⟩
    have hplace : magnitude x = t * 2 ^ 52 + m' := by omega
    have hscale : scale (magnitude x) = m' * 2 ^ e' := by
      rw [hplace, scale_place hlt.le (by omega), ← ht, add_sub_cancel_right]
    refine ⟨?_, he, hlead⟩
    rw [value_eq hnum, hscale, ← hsign, apply_signOf]
    split_ifs <;> simp

/-- What the bits of a positive double are. -/
theorem IsPositive.exists_unpack (hx : IsPositive x) : ∃ m e hm,
    x.toModel.unpack = .finite .positive m e hm ∧ value x = m * 2 ^ e ∧ -1074 ≤ e ∧
      (e = -1074 ∨ 2 ^ 52 ≤ m) := by
  obtain ⟨m, e, hm, hfinite⟩ := hx
  exact ⟨m, e, hm, hfinite, parts_of_unpack hfinite⟩

/-- **Products of positive doubles are rounded to the nearest one.** -/
theorem IsPositive.isNearest_mul (hx : IsPositive x) (hy : IsPositive y) :
    IsNearest (x * y) (value x * value y) := by
  obtain ⟨m₁, e₁, h₁, hunpack₁, hvalue₁, he₁, hlead₁⟩ := hx.exists_unpack
  obtain ⟨m₂, e₂, h₂, hunpack₂, hvalue₂, he₂, hlead₂⟩ := hy.exists_unpack
  have hbits : e₁ + e₂ ≤ exponentFor (m₁ * m₂) (e₁ + e₂) := by
    have hlog (h : 2 ^ 52 ≤ m₁ ∨ 2 ^ 52 ≤ m₂) : 52 ≤ (m₁ * m₂).log2 := by
      refine (Nat.le_log2 (Nat.mul_pos h₁ h₂).ne').2 ?_
      rcases h with h | h
      · exact h.trans (Nat.le_mul_of_pos_right m₁ h₂)
      · exact h.trans (Nat.le_mul_of_pos_left m₂ h₁)
    rw [exponentFor]
    omega
  have h := isNearest_mul_finite h₁ h₂ hbits
  rw [← hunpack₁, ← hunpack₂, ← hvalue₁, ← hvalue₂] at h
  exact h

/-- **Quotients of positive doubles are rounded to the nearest one.** -/
theorem IsPositive.isNearest_div (hx : IsPositive x) (hy : IsPositive y) :
    IsNearest (x / y) (value x / value y) := by
  obtain ⟨m₁, e₁, h₁, hunpack₁, hvalue₁, -⟩ := hx.exists_unpack
  obtain ⟨m₂, e₂, h₂, hunpack₂, hvalue₂, -⟩ := hy.exists_unpack
  have h := @isNearest_div_finite m₁ m₂ e₁ e₂ h₁ h₂
  rw [← hunpack₁, ← hunpack₂, ← hvalue₁, ← hvalue₂] at h
  exact h

end Doubles

end SchedAudit.Binary64
