import Mathlib
import SchedAudit.Proofs.Binary64.Order

/-!
# The number behind a double, and the double nearest to a number

The bits of a double stand for a rational (`value`), and its magnitude is a place on a **scale** of
rationals that ascends strictly (`strictMono_scale`). So to round is to find a place: `Nearest` says of
a place that no other one is closer, and that its last bit is zero if another one is as close. An
infinity stands where the scale goes on after the largest number, which is where rounding finds it.

`IsNearest` says the same of a double among all doubles. The mantissas of one exponent are evenly
spaced, so it is enough to round to an integer and to put the exponent back (`nearest_place`).
-/

namespace SchedAudit.Binary64

/-! ## Values -/

/-- The rational that a value is. An infinity is where the next number would be. -/
def Value.toRat : Value → ℚ
  | .nan => 0
  | .infinite negative => if negative then -2 ^ (1024 : ℤ) else 2 ^ (1024 : ℤ)
  | .finite negative mantissa exponent =>
    if negative then -(mantissa * 2 ^ exponent) else mantissa * 2 ^ exponent

/-- The rational that a double stands for. -/
def value (x : Float) : ℚ := (classify x).toRat

/-- **The double nearest to a number**: no other is closer, and its last bit is zero if another one is
as close. -/
structure IsNearest (x : Float) (q : ℚ) : Prop where
  isNaN : x.isNaN = false
  closest : ∀ y : Float, y.isNaN = false → |value x - q| ≤ |value y - q|
  even : ∀ y : Float, y.isNaN = false → value y ≠ value x → |value y - q| = |value x - q| →
    magnitude x % 2 = 0

/-! ## The scale of magnitudes -/

/-- The number at a place: its mantissa, times a power of two. -/
def scale (k : ℕ) : ℚ :=
  (k - (k / 2 ^ 52 - 1) * 2 ^ 52 : ℕ) * 2 ^ (((k / 2 ^ 52 - 1 : ℕ) : ℤ) - 1074)

/-- The place of a mantissa and an exponent. A mantissa that has just overflowed is in order. -/
theorem scale_place {t r : ℕ} (hr : r ≤ 2 ^ 53) (hlead : t = 0 ∨ 2 ^ 52 ≤ r) :
    scale (t * 2 ^ 52 + r) = r * 2 ^ ((t : ℤ) - 1074) := by
  rw [scale]
  rcases lt_or_eq_of_le hr with hlt | rfl
  · have ht : (t * 2 ^ 52 + r) / 2 ^ 52 - 1 = t := by omega
    rw [ht, Nat.add_sub_cancel_left]
  · have ht : (t * 2 ^ 52 + 2 ^ 53) / 2 ^ 52 - 1 = t + 1 := by omega
    have hr : t * 2 ^ 52 + 2 ^ 53 - (t + 1) * 2 ^ 52 = 2 ^ 52 := by omega
    rw [ht, hr, Nat.cast_succ, add_sub_right_comm, zpow_add_one₀ two_ne_zero]
    push_cast
    ring

/-- Every place is that of a mantissa and an exponent. -/
theorem exists_place (k : ℕ) :
    ∃ t r, k = t * 2 ^ 52 + r ∧ r < 2 ^ 53 ∧ (t = 0 ∨ 2 ^ 52 ≤ r) :=
  ⟨k / 2 ^ 52 - 1, k - (k / 2 ^ 52 - 1) * 2 ^ 52, by omega, by omega, by omega⟩

theorem two_zpow_pos (e : ℤ) : (0 : ℚ) < 2 ^ e := zpow_pos two_pos e

theorem strictMono_scale : StrictMono scale := by
  refine strictMono_nat_of_lt_succ fun k => ?_
  obtain ⟨t, r, rfl, hr, hlead⟩ := exists_place k
  rw [add_assoc, scale_place hr.le hlead, scale_place (Nat.succ_le_of_lt hr) (by omega)]
  exact mul_lt_mul_of_pos_right (by exact_mod_cast r.lt_succ_self) (two_zpow_pos _)

/-- Steps do not get narrower: past the places of an exponent they are as wide as there. -/
theorem scale_add_zpow_le {t i j : ℕ} (hij : i < j) (hj : (t + 1) * 2 ^ 52 < j) :
    scale i + 2 ^ ((t : ℤ) - 1074) ≤ scale j := by
  obtain ⟨p, rfl⟩ := Nat.exists_eq_add_of_lt hij
  obtain ⟨t', r, hplace, hr, hlead⟩ := exists_place (i + p)
  have hexponent : (t : ℤ) - 1074 ≤ t' - 1074 := by omega
  rw [hplace, add_assoc, scale_place (Nat.succ_le_of_lt hr) (by omega)]
  calc scale i + 2 ^ ((t : ℤ) - 1074) ≤ scale (i + p) + 2 ^ ((t' : ℤ) - 1074) :=
        add_le_add (strictMono_scale.monotone (Nat.le_add_right i p))
          (zpow_le_zpow_right₀ one_le_two hexponent)
    _ = (r + 1 : ℕ) * 2 ^ ((t' : ℤ) - 1074) := by
        rw [hplace, scale_place hr.le hlead]
        push_cast
        ring

@[simp] theorem scale_zero : scale 0 = 0 := by rw [scale, Nat.zero_sub, Nat.cast_zero, zero_mul]

theorem scale_nonneg (k : ℕ) : 0 ≤ scale k := scale_zero ▸ strictMono_scale.monotone (Nat.zero_le k)

theorem scale_infinityMagnitude : scale infinityMagnitude = 2 ^ (1024 : ℤ) := by
  have h := scale_place (t := 2045) (r := 2 ^ 53) le_rfl (by norm_num)
  have hplace : infinityMagnitude = 2045 * 2 ^ 52 + 2 ^ 53 := by rw [infinityMagnitude]; norm_num
  have hpow : (2 : ℚ) ^ (1024 : ℤ) = 2 ^ (53 : ℤ) * 2 ^ ((2045 : ℕ) - 1074 : ℤ) := by
    rw [← zpow_add₀ two_ne_zero]
    norm_num
  rw [hplace, h, hpow]
  norm_cast

/-- The magnitude of a number is not above that of the infinities. -/
theorem magnitude_le {x : Float} (hx : x.isNaN = false) : magnitude x ≤ infinityMagnitude := by
  change x.toModel.unpack.isNaN = false at hx
  rcases unpack_cases x with h | ⟨hmag, -⟩ | ⟨hmag, -⟩ | ⟨m, e, hm, -, -, -, -, -, hlt⟩
  · rw [h] at hx
    cases hx
  · exact hmag.le
  · exact hmag.le.trans (Nat.zero_le _)
  · exact hlt.le

theorem toRat_finite (negative : Bool) (m : ℕ) (e : ℤ) :
    (Value.finite negative m e).toRat =
      if negative then -((m : ℚ) * 2 ^ e) else (m : ℚ) * 2 ^ e := rfl

/-- The value of a double is the number at its magnitude, with its sign. -/
theorem value_eq {x : Float} (hx : x.isNaN = false) :
    value x = if isNegative x then -scale (magnitude x) else scale (magnitude x) := by
  have hle := magnitude_le hx
  have hpow : Nat.pow 2 52 = 2 ^ 52 := rfl
  have hfinite {m t : ℕ} (hm : m < 2 ^ 53) (hlead : t = 0 ∨ 2 ^ 52 ≤ m)
      (hplace : magnitude x = t * 2 ^ 52 + m) : (Value.finite (isNegative x) m (t - 1074)).toRat =
        if isNegative x then -scale (magnitude x) else scale (magnitude x) := by
    rw [hplace, scale_place hm.le hlead, toRat_finite]
  rw [value, classify]
  simp only [hpow]
  rw [infinityMagnitude] at hle
  split
  · next htop =>
    have hmag : magnitude x = infinityMagnitude := by rw [infinityMagnitude]; omega
    rw [if_pos (by omega), hmag, scale_infinityMagnitude, Value.toRat]
  · split
    · next hleast => exact hfinite (t := 0) (by omega) (.inl rfl) (by omega)
    · next htop hleast =>
      have h := hfinite (m := 2 ^ 52 + magnitude x % 2 ^ 52) (t := magnitude x / 2 ^ 52 - 1)
        (by omega) (.inr (by omega)) (by omega)
      have hexponent : ((magnitude x / 2 ^ 52 - 1 : ℕ) : ℤ) - 1074 =
          ((magnitude x / 2 ^ 52 : ℕ) : ℤ) - 1075 := by omega
      rwa [hexponent] at h

/-! ## Nearest places -/

/-- A place that is nearest to a number, on a scale without end. -/
structure Nearest (q : ℚ) (k : ℕ) : Prop where
  closest : ∀ j, |scale k - q| ≤ |scale j - q|
  even : ∀ j, j ≠ k → |scale j - q| = |scale k - q| → k % 2 = 0

/-- A number that an integer is nearest to, and that is even if another one is as near. -/
structure RoundsTo (x : ℚ) (r : ℕ) : Prop where
  le_add_half : x ≤ r + 1 / 2
  sub_half_le : r - 1 / 2 ≤ x
  even : x = r + 1 / 2 ∨ x = r - 1 / 2 → r % 2 = 0

theorem RoundsTo.le_of_lt {x : ℚ} {r n : ℕ} (h : RoundsTo x r) (hx : x < n) : r ≤ n := by
  have hlt : (r : ℚ) < n + 1 := by linarith [h.sub_half_le]
  exact Nat.lt_succ_iff.1 (by exact_mod_cast hlt)

theorem RoundsTo.le_of_le {x : ℚ} {r n : ℕ} (h : RoundsTo x r) (hx : n ≤ x) : n ≤ r := by
  have hlt : (n : ℚ) < r + 1 := by linarith [h.le_add_half]
  exact Nat.lt_succ_iff.1 (by exact_mod_cast hlt)

theorem roundsTo_natCast (n : ℕ) : RoundsTo n n :=
  ⟨by linarith, by linarith, by rintro (h | h) <;> linarith⟩

/-- Only one integer is nearest: of two in the middle between which a number is, one is odd. -/
theorem RoundsTo.unique {x : ℚ} {r s : ℕ} (hr : RoundsTo x r) (hs : RoundsTo x s) : r = s := by
  wlog hlt : r < s generalizing r s
  · rcases eq_or_lt_of_le (not_lt.1 hlt) with heq | hgt
    · exact heq.symm
    · exact (this hs hr hgt).symm
  · have hstep : (r : ℚ) + 1 ≤ s := by exact_mod_cast hlt
    have hclose : (s : ℚ) ≤ r + 1 := by linarith [hr.le_add_half, hs.sub_half_le]
    have hnext : s = r + 1 := le_antisymm (by exact_mod_cast hclose) hlt
    have hreven := hr.even (.inl (by linarith [hr.le_add_half, hs.sub_half_le]))
    have hseven := hs.even (.inr (by linarith [hr.le_add_half, hs.sub_half_le]))
    omega

/-- A place is nearest to what is at most half a unit away, if the next places on that side are at least
a unit away. -/
theorem nearest_of_spacing {q u : ℚ} {k : ℕ} (hup : q ≤ scale k + u / 2) (hlow : scale k - u / 2 ≤ q)
    (heven : q = scale k + u / 2 ∨ q = scale k - u / 2 → k % 2 = 0)
    (habove : ∀ j, k < j → scale k < q → scale k + u ≤ scale j)
    (hbelow : ∀ j < k, q < scale k → scale j ≤ scale k - u) : Nearest q k := by
  have hdist {j : ℕ} (hj : j ≠ k) : |scale k - q| ≤ |scale j - q| ∧
      (|scale j - q| = |scale k - q| → q = scale k + u / 2 ∨ q = scale k - u / 2) := by
    rcases lt_or_gt_of_ne hj with hlt | hlt
    · have hscale := strictMono_scale hlt
      rcases lt_or_ge q (scale k) with hq | hq
      · have hstep := hbelow j hlt hq
        rw [abs_of_pos (by linarith), abs_of_nonpos (by linarith)]
        exact ⟨by linarith, fun htie => .inr (by linarith)⟩
      · rw [abs_of_nonpos (by linarith), abs_of_nonpos (by linarith)]
        exact ⟨by linarith, fun htie => by linarith⟩
    · have hscale := strictMono_scale hlt
      rcases lt_or_ge (scale k) q with hq | hq
      · have hstep := habove j hlt hq
        rw [abs_of_neg (by linarith), abs_of_nonneg (by linarith)]
        exact ⟨by linarith, fun htie => .inl (by linarith)⟩
      · rw [abs_of_nonneg (by linarith), abs_of_nonneg (by linarith)]
        exact ⟨by linarith, fun htie => by linarith⟩
  refine ⟨fun j => ?_, fun j hj htie => heven ((hdist hj).2 htie)⟩
  rcases eq_or_ne j k with rfl | hj
  · exact le_rfl
  · exact (hdist hj).1

/-- **Rounding the mantissa is rounding.** The mantissa is below its bound, and has a leading bit unless
the exponent is the least one; so the neighbours that matter have the same exponent. -/
theorem nearest_place {t r : ℕ} {x : ℚ} (hx : 0 ≤ x) (hround : RoundsTo x r) (hlt : x < 2 ^ 53)
    (hlead : t = 0 ∨ 2 ^ 52 ≤ x) : Nearest (x * 2 ^ ((t : ℤ) - 1074)) (t * 2 ^ 52 + r) := by
  have hu := two_zpow_pos (t - 1074)
  have hr : r ≤ 2 ^ 53 := hround.le_of_lt (by exact_mod_cast hlt)
  have hrlead : t = 0 ∨ 2 ^ 52 ≤ r := hlead.imp_right fun h => hround.le_of_le (by exact_mod_cast h)
  obtain ⟨hup, hlow, heven⟩ := hround
  have hplace := scale_place hr hrlead
  refine nearest_of_spacing (u := 2 ^ ((t : ℤ) - 1074)) ?_ ?_ ?_ ?_ ?_ <;> rw [hplace]
  · calc x * 2 ^ ((t : ℤ) - 1074) ≤ (r + 1 / 2) * 2 ^ ((t : ℤ) - 1074) :=
          mul_le_mul_of_nonneg_right hup hu.le
      _ = (r : ℚ) * 2 ^ ((t : ℤ) - 1074) + 2 ^ ((t : ℤ) - 1074) / 2 := by ring
  · calc (r : ℚ) * 2 ^ ((t : ℤ) - 1074) - 2 ^ ((t : ℤ) - 1074) / 2
        = (r - 1 / 2) * 2 ^ ((t : ℤ) - 1074) := by ring
      _ ≤ x * 2 ^ ((t : ℤ) - 1074) := mul_le_mul_of_nonneg_right hlow hu.le
  · intro htie
    have hparity : (t * 2 ^ 52 + r) % 2 = r % 2 := by omega
    rw [hparity]
    refine heven (htie.imp (fun h => ?_) fun h => ?_) <;>
      exact mul_right_cancel₀ hu.ne' (h.trans (by ring))
  · intro j hj hlt'
    have hgt : (r : ℚ) < x := lt_of_mul_lt_mul_right hlt' hu.le
    have hsucc : r + 1 ≤ 2 ^ 53 := Nat.succ_le_of_lt (by exact_mod_cast hgt.trans hlt)
    have hnext := scale_place hsucc (hrlead.imp_right Nat.le_succ_of_le)
    rw [Nat.cast_succ, add_one_mul, ← add_assoc] at hnext
    exact hnext ▸ strictMono_scale.monotone hj
  · intro j hj hlt'
    have hgt : x < r := lt_of_mul_lt_mul_right hlt' hu.le
    obtain ⟨p, rfl⟩ : ∃ p, r = p + 1 :=
      Nat.exists_eq_succ_of_ne_zero fun h => by rw [h, Nat.cast_zero] at hgt; linarith
    have hplead : t = 0 ∨ 2 ^ 52 ≤ p := hlead.imp_right fun h =>
      Nat.lt_succ_iff.1 (by exact_mod_cast h.trans_lt hgt)
    have hprev := scale_place (Nat.le_of_succ_le hr) hplead
    rw [Nat.cast_succ, add_one_mul, add_sub_cancel_right, ← hprev]
    exact strictMono_scale.monotone (Nat.lt_succ_iff.1 hj)

/-! ## The end of the scale -/

/-- A place that is nearest to a number among the places of doubles. -/
structure NearestPlace (q : ℚ) (k : ℕ) : Prop where
  closest : ∀ j ≤ infinityMagnitude, |scale k - q| ≤ |scale j - q|
  even : ∀ j ≤ infinityMagnitude, j ≠ k → |scale j - q| = |scale k - q| → k % 2 = 0

/-- What is beyond the infinities is nearest to them. -/
theorem nearestPlace_infinityMagnitude {q : ℚ} (h : scale infinityMagnitude ≤ q) :
    NearestPlace q infinityMagnitude where
  closest j hj := by
    have hle := strictMono_scale.monotone hj
    rw [abs_of_nonpos (by linarith), abs_of_nonpos (by linarith)]
    linarith
  even _ _ _ _ := by decide

/-- A place beyond the infinities is cut off. -/
theorem Nearest.cut {q : ℚ} {k : ℕ} (h : Nearest q k) : NearestPlace q (min infinityMagnitude k) := by
  rcases le_or_gt k infinityMagnitude with hk | hk
  · rw [min_eq_right hk]
    exact ⟨fun j _ => h.closest j, fun j _ => h.even j⟩
  · rw [min_eq_left hk.le]
    -- What is nearest to a place beyond the end is itself beyond it.
    refine nearestPlace_infinityMagnitude (not_lt.1 fun hq => ?_)
    have hclosest := h.closest infinityMagnitude
    have hlt := strictMono_scale hk
    rw [abs_of_pos (by linarith), abs_of_pos (by linarith)] at hclosest
    linarith

/-- Two places are not both nearest: one between them would be closer. -/
theorem NearestPlace.unique {q : ℚ} {j k : ℕ} (hj : NearestPlace q j) (hk : NearestPlace q k)
    (hjtop : j ≤ infinityMagnitude) (hktop : k ≤ infinityMagnitude) : j = k := by
  wlog hlt : j < k generalizing j k
  · rcases eq_or_lt_of_le (not_lt.1 hlt) with heq | hgt
    · exact heq.symm
    · exact (this hk hj hktop hjtop hgt).symm
  · have htie : |scale j - q| = |scale k - q| :=
      le_antisymm (hj.closest k hktop) (hk.closest j hjtop)
    have hjeven := hj.even k hktop hlt.ne' htie.symm
    have hkeven := hk.even j hjtop hlt.ne htie
    have hnext : scale j < scale (j + 1) := strictMono_scale (by omega)
    have hnext' : scale (j + 1) < scale k := strictMono_scale (by omega)
    have hcloser := hj.closest (j + 1) (by omega)
    -- The number is in the middle, for places on one side of it are not equally far.
    rcases abs_eq_abs.1 htie with heq | heq
    · linarith
    · rw [abs_of_nonpos (by linarith : scale j - q ≤ 0), le_abs] at hcloser
      rcases hcloser with h | h <;> linarith

/-- What is nearest to a number is not below a place that the number has reached. -/
theorem NearestPlace.le_of_scale_le {q : ℚ} {j k : ℕ} (h : NearestPlace q k)
    (hj : j ≤ infinityMagnitude) (hq : scale j ≤ q) : j ≤ k := by
  refine not_lt.1 fun hlt => ?_
  have hscale := strictMono_scale hlt
  have hclosest := h.closest j hj
  rw [abs_of_neg (by linarith), abs_of_nonpos (by linarith)] at hclosest
  linarith

/-- What has not come half the way from the last number to the infinities is not nearest to them. -/
theorem NearestPlace.lt_infinityMagnitude {q : ℚ} {k : ℕ} (h : NearestPlace q k)
    (hk : k ≤ infinityMagnitude)
    (hq : 2 * q < scale (infinityMagnitude - 1) + scale infinityMagnitude) :
    k < infinityMagnitude := by
  refine lt_of_le_of_ne hk ?_
  rintro rfl
  have hclosest := h.closest (infinityMagnitude - 1) (Nat.sub_le ..)
  have hlt : scale (infinityMagnitude - 1) < scale infinityMagnitude := strictMono_scale (by decide)
  rw [abs_of_pos (by linarith), le_abs] at hclosest
  rcases hclosest with h | h <;> linarith

/-! ## Nearest doubles -/

/-- **A double at the nearest place is the nearest double.** -/
theorem NearestPlace.isNearest {q : ℚ} {x : Float} (h : NearestPlace q (magnitude x)) (hq : 0 ≤ q)
    (hx : x.isNaN = false) (hsign : isNegative x = false) : IsNearest x q := by
  have hvalue : value x = scale (magnitude x) := by rw [value_eq hx, hsign]; rfl
  -- A negative double is not closer than zero is.
  have hnegative {y : Float} (hy : y.isNaN = false) (hneg : isNegative y = true) :
      |scale 0 - q| ≤ |value y - q| ∧ (|value y - q| = |scale 0 - q| → value y = scale 0) := by
    have hnonneg := scale_nonneg (magnitude y)
    rw [value_eq hy, hneg, if_pos rfl, scale_zero, abs_of_nonpos (by linarith),
      abs_of_nonpos (by linarith)]
    exact ⟨by linarith, fun h => by linarith⟩
  refine ⟨hx, fun y hy => ?_, fun y hy hne htie => ?_⟩
  · rw [hvalue]
    cases hneg : isNegative y with
    | true => exact (h.closest 0 (Nat.zero_le _)).trans (hnegative hy hneg).1
    | false =>
      rw [value_eq hy, hneg]
      exact h.closest _ (magnitude_le hy)
  · rw [hvalue] at hne htie
    cases hneg : isNegative y with
    | true =>
      -- Then zero is as close, and it is not the double itself.
      obtain ⟨hzero, hsame⟩ := hnegative hy hneg
      have htie₀ : |scale 0 - q| = |scale (magnitude x) - q| :=
        le_antisymm (hzero.trans htie.le) (h.closest 0 (Nat.zero_le _))
      refine h.even 0 (Nat.zero_le _) (fun h => hne ?_) htie₀
      rw [← h]
      exact hsame (htie.trans htie₀.symm)
    | false =>
      rw [value_eq hy, hneg] at hne htie
      exact h.even _ (magnitude_le hy) (fun h => hne (congrArg scale h)) htie

end SchedAudit.Binary64
