import Mathlib
import SchedAudit.Binary64

/-!
# The order of doubles

The comparisons of `Float` unpack both arguments and look at sign, exponent and mantissa. For the
audit all of that comes down to one integer:

* `numericKey` — the magnitude with its sign. Numbers compare as their keys (`lt_iff`, `beq_iff`);
  what is not a number is neither below nor above anything.
* `orderKey` refines `numericKey` (`numericKey_le_of_orderKey_le`), and no two doubles share a key.
-/

namespace SchedAudit.Binary64

open Float.Model

/-! ## The fields of a double -/

theorem toNat_unpackMantissa (b : BitVec 64) :
    (@UnpackedFloat.unpackMantissa .binary64 b).toNat = b.toNat % 2 ^ 52 := by
  simp [UnpackedFloat.unpackMantissa]

theorem toNat_unpackExponent (b : BitVec 64) :
    (@UnpackedFloat.unpackExponent .binary64 b).toNat =
      b.toNat / 2 ^ 52 % 2 ^ 11 := by
  simp [UnpackedFloat.unpackExponent, Nat.shiftRight_eq_div_pow]

theorem toNat_unpackSign (b : BitVec 64) :
    (@UnpackedFloat.unpackSign .binary64 b).toNat = b.toNat / 2 ^ 63 := by
  have hlt := b.isLt
  simp only [UnpackedFloat.unpackSign, BitVec.toNat_cast, BitVec.extractLsb_toNat,
    Nat.shiftRight_eq_div_pow]
  omega

/-- The leading bit that a normal number leaves out. -/
theorem toNat_leading (f : BitVec 52) : (1#1 ++ f).toNat = 2 ^ 52 + f.toNat := by
  rw [BitVec.toNat_append, ← Nat.shiftLeft_add_eq_or_of_lt f.isLt]
  simp [Nat.shiftLeft_eq]

/-- The sign bit in the words of the arithmetic. -/
def signOf (x : Float) : UnpackedFloat.Sign := if isNegative x then .negative else .positive

theorem ofBitVec_unpackSign (x : Float) :
    UnpackedFloat.Sign.ofBitVec
      (@UnpackedFloat.unpackSign .binary64 x.toModel.toBits.toBitVec) =
      signOf x := by
  have hsign := toNat_unpackSign x.toModel.toBits.toBitVec
  have hnegative : isNegative x = decide (2 ^ 63 ≤ x.toModel.toBits.toBitVec.toNat) := rfl
  have hzero : @UnpackedFloat.unpackSign .binary64 x.toModel.toBits.toBitVec =
      0#1 ↔ ¬ 2 ^ 63 ≤ x.toModel.toBits.toBitVec.toNat := by
    rw [← BitVec.toNat_inj, hsign]
    simp
  rw [UnpackedFloat.Sign.ofBitVec, signOf, hnegative]
  simp only [hzero, decide_eq_true_eq]
  split_ifs <;> rfl

/-- The magnitude of the infinities, below which all numbers lie. -/
def infinityMagnitude : Nat := 2047 * 2 ^ 52

/-- **What the bits stand for.** A number is a sign, an exponent and a mantissa, and its magnitude
puts the mantissa behind the exponent. -/
theorem unpack_cases (x : Float) :
    x.toModel.unpack = .notANumber ∨
    (magnitude x = infinityMagnitude ∧ x.toModel.unpack = .infinity (signOf x)) ∨
    (magnitude x = 0 ∧ x.toModel.unpack = .zero (signOf x)) ∨
    ∃ m e hm, x.toModel.unpack = .finite (signOf x) m e hm ∧
      (magnitude x : Int) = (e + 1074) * 2 ^ 52 + m ∧ -1074 ≤ e ∧ m < 2 ^ 53 ∧
      (e = -1074 ∨ 2 ^ 52 ≤ m) ∧ magnitude x < infinityMagnitude := by
  have hmant := toNat_unpackMantissa x.toModel.toBits.toBitVec
  have hexp := toNat_unpackExponent x.toModel.toBits.toBitVec
  have hsign := ofBitVec_unpackSign x
  have hmagnitude : magnitude x = x.toModel.toBits.toBitVec.toNat % 2 ^ 63 := rfl
  have hbias : Format.binary64.exponentBias = 1023 := rfl
  have hunpack : x.toModel.unpack =
      UnpackedFloat.unpack Format.binary64 x.toModel.toBits.toBitVec := rfl
  generalize x.toModel.toBits.toBitVec = b at *
  dsimp only [UnpackedFloat.unpack] at hunpack
  rw [hsign] at hunpack
  split at hunpack
  · -- all bits of the exponent are set: an infinity, or not a number
    next hall =>
    rw [← BitVec.toNat_inj, hexp] at hall
    split at hunpack
    · next hzero =>
      rw [← BitVec.toNat_inj, hmant] at hzero
      refine .inr (.inl ⟨?_, hunpack⟩)
      simp only [BitVec.toNat_zero, BitVec.neg_one_eq_allOnes, BitVec.toNat_allOnes] at hall hzero
      rw [infinityMagnitude]
      omega
    · exact .inl hunpack
  · next hall =>
    rw [← BitVec.toNat_inj, hexp, BitVec.neg_one_eq_allOnes, BitVec.toNat_allOnes] at hall
    simp only at hall
    split at hunpack
    · -- none is set: a zero, or a number without a leading bit
      next hleast =>
      rw [← BitVec.toNat_inj, hexp, BitVec.toNat_zero] at hleast
      split at hunpack
      · next hzero =>
        rw [← BitVec.toNat_inj, hmant, BitVec.toNat_zero] at hzero
        refine .inr (.inr (.inl ⟨?_, hunpack⟩))
        omega
      · refine .inr (.inr (.inr ⟨_, _, _, hunpack, ?_⟩))
        simp only [hbias, infinityMagnitude]
        omega
    · -- a number with a leading bit
      next hleast =>
      rw [← BitVec.toNat_inj, hexp, BitVec.toNat_zero] at hleast
      have hleading := toNat_leading (@UnpackedFloat.unpackMantissa .binary64 b)
      refine .inr (.inr (.inr ⟨_, _, _, hunpack, ?_⟩))
      simp only [hbias, infinityMagnitude, hleading]
      omega

/-! ## Comparison -/

/-- The place of an unpacked number on the scale of the magnitudes. -/
def rank : UnpackedFloat → Int
  | .infinity s => s.apply infinityMagnitude
  | .finite s m e _ => s.apply ((e + 1074) * 2 ^ 52 + m)
  | .zero _ | .notANumber => 0

/-- What unpacking gives: the exponent is the least one unless the leading bit is there, and the
place lies below infinity. -/
def Canonical : UnpackedFloat → Prop
  | .finite _ m e _ =>
    -1074 ≤ e ∧ m < 2 ^ 53 ∧ (e = -1074 ∨ 2 ^ 52 ≤ m) ∧
      (e + 1074) * 2 ^ 52 + m < infinityMagnitude
  | _ => True

theorem lt_eq_compare {a b : Int} (h : a < b) : some Ordering.lt = some (compare a b) :=
  congrArg some (compare_lt_iff_lt.2 h).symm

theorem gt_eq_compare {a b : Int} (h : b < a) : some Ordering.gt = some (compare a b) :=
  congrArg some (compare_gt_iff_gt.2 h).symm

theorem then_compare {m₁ m₂ : Nat} {e₁ e₂ : Int} (he₁ : -1074 ≤ e₁) (he₂ : -1074 ≤ e₂)
    (hm₁ : m₁ < 2 ^ 53) (hm₂ : m₂ < 2 ^ 53) (hn₁ : e₁ = -1074 ∨ 2 ^ 52 ≤ m₁)
    (hn₂ : e₂ = -1074 ∨ 2 ^ 52 ≤ m₂) :
    (compare e₁ e₂).then (compare m₁ m₂) =
      compare ((e₁ + 1074) * 2 ^ 52 + m₁) ((e₂ + 1074) * 2 ^ 52 + m₂) := by
  -- A larger exponent outweighs any mantissa: it comes with a leading bit.
  rcases lt_trichotomy e₁ e₂ with he | he | he
  · have hk : (e₁ + 1074) * 2 ^ 52 + (m₁ : Int) < (e₂ + 1074) * 2 ^ 52 + m₂ := by omega
    rw [compare_lt_iff_lt.2 he, compare_lt_iff_lt.2 hk]
    rfl
  · subst he
    rw [compare_eq_iff_eq.2 (rfl : e₁ = e₁)]
    rcases lt_trichotomy m₁ m₂ with hm | hm | hm
    · have hk : (e₁ + 1074) * 2 ^ 52 + (m₁ : Int) < (e₁ + 1074) * 2 ^ 52 + m₂ := by omega
      rw [compare_lt_iff_lt.2 hm, compare_lt_iff_lt.2 hk]
      rfl
    · subst hm
      rw [compare_eq_iff_eq.2 (rfl : m₁ = m₁), compare_eq_iff_eq.2 rfl]
      rfl
    · have hk : (e₁ + 1074) * 2 ^ 52 + (m₂ : Int) < (e₁ + 1074) * 2 ^ 52 + m₁ := by omega
      rw [compare_gt_iff_gt.2 hm, compare_gt_iff_gt.2 hk]
      rfl
  · have hk : (e₂ + 1074) * 2 ^ 52 + (m₂ : Int) < (e₁ + 1074) * 2 ^ 52 + m₁ := by omega
    rw [compare_gt_iff_gt.2 he, compare_gt_iff_gt.2 hk]
    rfl

theorem compare_neg (a b : Int) : compare (-a) (-b) = (compare a b).swap := by
  rcases lt_trichotomy a b with h | h | h
  · rw [compare_lt_iff_lt.2 h, compare_gt_iff_gt.2 (Int.neg_lt_neg h)]
    rfl
  · subst h
    rw [compare_eq_iff_eq.2 rfl, compare_eq_iff_eq.2 rfl]
    rfl
  · rw [compare_gt_iff_gt.2 h, compare_lt_iff_lt.2 (Int.neg_lt_neg h)]
    rfl

/-- **Numbers compare as their places.** -/
theorem compare_of_canonical {a b : UnpackedFloat} (ha : Canonical a) (hb : Canonical b)
    (hna : a.isNaN = false) (hnb : b.isNaN = false) :
    a.compare b = some (compare (rank a) (rank b)) := by
  have hinf : infinityMagnitude = 2047 * 2 ^ 52 := rfl
  cases a with
  | notANumber => cases hna
  | infinity s =>
    cases b with
    | notANumber => cases hnb
    | infinity t => cases s <;> cases t <;> decide
    | zero t => cases s <;> cases t <;> decide
    | finite t m e hm =>
      obtain ⟨he, -, -, hlt⟩ := hb
      cases s
      · refine lt_eq_compare ?_
        cases t <;> simp only [rank, UnpackedFloat.Sign.apply] <;> omega
      · refine gt_eq_compare ?_
        cases t <;> simp only [rank, UnpackedFloat.Sign.apply] <;> omega
  | zero s =>
    cases b with
    | notANumber => cases hnb
    | infinity t => cases s <;> cases t <;> decide
    | zero t => rfl
    | finite t m e hm =>
      obtain ⟨he, -, -, -⟩ := hb
      cases t
      · refine gt_eq_compare ?_
        simp only [rank, UnpackedFloat.Sign.apply]
        omega
      · refine lt_eq_compare ?_
        simp only [rank, UnpackedFloat.Sign.apply]
        omega
  | finite s m e hm =>
    obtain ⟨he, hm₁, hn, hlt⟩ := ha
    cases b with
    | notANumber => cases hnb
    | infinity t =>
      cases t
      · have hgt : rank (.infinity .negative) < rank (.finite s m e hm) := by
          cases s <;> simp only [rank, UnpackedFloat.Sign.apply] <;> omega
        cases s <;> exact gt_eq_compare hgt
      · have hlt : rank (.finite s m e hm) < rank (.infinity .positive) := by
          cases s <;> simp only [rank, UnpackedFloat.Sign.apply] <;> omega
        cases s <;> exact lt_eq_compare hlt
    | zero t =>
      cases s
      · refine lt_eq_compare ?_
        simp only [rank, UnpackedFloat.Sign.apply]
        omega
      · refine gt_eq_compare ?_
        simp only [rank, UnpackedFloat.Sign.apply]
        omega
    | finite t m' e' hm' =>
      obtain ⟨he', hm₁', hn', hlt'⟩ := hb
      have hthen := then_compare he he' hm₁ hm₁' hn hn'
      cases s <;> cases t
      · -- of two negative numbers the one with the larger magnitude is smaller
        exact congrArg some (by rw [hthen]; exact (compare_neg _ _).symm)
      · refine lt_eq_compare ?_
        simp only [rank, UnpackedFloat.Sign.apply]
        omega
      · refine gt_eq_compare ?_
        simp only [rank, UnpackedFloat.Sign.apply]
        omega
      · exact congrArg some hthen

/-! ## What is not a number -/

/-- There is no comparing with what is not a number. -/
theorem compare_eq_none {x y : Float} (h : x.isNaN = true ∨ y.isNaN = true) :
    x.toModel.unpack.compare y.toModel.unpack = none := by
  change x.toModel.unpack.isNaN = true ∨ y.toModel.unpack.isNaN = true at h
  cases hx : x.toModel.unpack with
  | notANumber => rfl
  | _ =>
    cases hy : y.toModel.unpack with
    | notANumber => rfl
    | _ =>
      rw [hx, hy] at h
      rcases h with h | h <;> cases h

theorem not_lt_of_isNaN {x y : Float} (h : x.isNaN = true ∨ y.isNaN = true) : ¬x < y := by
  change ¬decide (x.toModel.unpack.lt y.toModel.unpack = true) = true
  rw [UnpackedFloat.lt, compare_eq_none h]
  decide

theorem not_le_of_isNaN {x y : Float} (h : x.isNaN = true ∨ y.isNaN = true) : ¬x ≤ y := by
  change ¬decide (x.toModel.unpack.le y.toModel.unpack = true) = true
  rw [UnpackedFloat.le, compare_eq_none h]
  decide

theorem beq_eq_false_of_isNaN {x y : Float} (h : x.isNaN = true ∨ y.isNaN = true) :
    (x == y) = false := by
  change x.toModel.unpack.beq y.toModel.unpack = false
  rw [UnpackedFloat.beq, compare_eq_none h]
  rfl

/-- What is not a number is below nothing. -/
theorem isNaN_eq_false_of_lt {x y : Float} (h : x < y) : x.isNaN = false :=
  Bool.eq_false_iff.2 fun hx => not_lt_of_isNaN (.inl hx) h

/-- What is not a number is equal to nothing. -/
theorem isNaN_eq_false_of_beq {x y : Float} (h : (x == y) = true) :
    x.isNaN = false ∧ y.isNaN = false := by
  have hne : (x == y) ≠ false := by
    rw [h]
    decide
  exact ⟨Bool.eq_false_iff.2 fun hx => hne (beq_eq_false_of_isNaN (.inl hx)),
    Bool.eq_false_iff.2 fun hy => hne (beq_eq_false_of_isNaN (.inr hy))⟩

/-! ## The numeric order -/

/-- The value of a double on the scale of its bits. The two zeros have the same. -/
def numericKey (x : Float) : Int := if isNegative x then -(magnitude x : Int) else magnitude x

theorem canonical_unpack (x : Float) : Canonical x.toModel.unpack := by
  rcases unpack_cases x with h | ⟨-, h⟩ | ⟨-, h⟩ | ⟨m, e, hm, h, hmag, he, hlt, hnormal, hfin⟩
  · rw [h]
    trivial
  · rw [h]
    trivial
  · rw [h]
    trivial
  · rw [h]
    exact ⟨he, hlt, hnormal, by omega⟩

theorem apply_signOf (x : Float) (n : Int) :
    (signOf x).apply n = if isNegative x then -n else n := by
  rw [signOf]
  cases isNegative x <;> rfl

theorem rank_unpack {x : Float} (hx : x.isNaN = false) : rank x.toModel.unpack = numericKey x := by
  change x.toModel.unpack.isNaN = false at hx
  rw [numericKey]
  rcases unpack_cases x with h | ⟨hmag, h⟩ | ⟨hmag, h⟩ | ⟨m, e, hm, h, hmag, -⟩
  · rw [h] at hx
    cases hx
  · rw [h, hmag]
    exact apply_signOf x _
  · rw [h, hmag]
    simp [rank]
  · rw [h, hmag]
    exact apply_signOf x _

/-- **Doubles compare as their keys**, unless one of them is not a number. -/
theorem compare_eq {x y : Float} (hx : x.isNaN = false) (hy : y.isNaN = false) :
    x.toModel.unpack.compare y.toModel.unpack = some (compare (numericKey x) (numericKey y)) := by
  rw [compare_of_canonical (canonical_unpack x) (canonical_unpack y) hx hy, rank_unpack hx,
    rank_unpack hy]

theorem lt_iff {x y : Float} (hx : x.isNaN = false) (hy : y.isNaN = false) :
    x < y ↔ numericKey x < numericKey y := by
  have h : x < y ↔ x.toModel.unpack.compare y.toModel.unpack = some .lt := by
    change decide (x.toModel.unpack.lt y.toModel.unpack = true) = true ↔ _
    rw [decide_eq_true_eq, UnpackedFloat.lt, beq_iff_eq]
  rw [h, compare_eq hx hy, Option.some_inj, compare_lt_iff_lt]

theorem le_iff {x y : Float} (hx : x.isNaN = false) (hy : y.isNaN = false) :
    x ≤ y ↔ numericKey x ≤ numericKey y := by
  have h : x ≤ y ↔ (x.toModel.unpack.compare y.toModel.unpack).any (·.isLE) = true := by
    change decide (x.toModel.unpack.le y.toModel.unpack = true) = true ↔ _
    rw [decide_eq_true_eq, UnpackedFloat.le]
  rw [h, compare_eq hx hy, Option.any_some, Int.isLE_compare]

theorem beq_iff {x y : Float} (hx : x.isNaN = false) (hy : y.isNaN = false) :
    (x == y) = true ↔ numericKey x = numericKey y := by
  have h : (x == y) = true ↔ x.toModel.unpack.compare y.toModel.unpack = some .eq := by
    change (x.toModel.unpack.beq y.toModel.unpack = true) ↔ _
    rw [UnpackedFloat.beq, beq_iff_eq]
  rw [h, compare_eq hx hy, Option.some_inj, compare_eq_iff_eq]

/-- Among numbers, what is not at most another one is above it. -/
theorem lt_of_not_le {x y : Float} (hx : x.isNaN = false) (hy : y.isNaN = false) (h : ¬x ≤ y) :
    y < x :=
  (lt_iff hy hx).2 (not_le.1 fun hle => h ((le_iff hx hy).2 hle))

/-- What lies below a number lies below all numbers after it. -/
theorem lt_of_lt_of_key_le {x a b : Float} (h : x < a) (ha : a.isNaN = false)
    (hb : b.isNaN = false) (hab : numericKey a ≤ numericKey b) : x < b := by
  have hx := isNaN_eq_false_of_lt h
  rw [lt_iff hx ha] at h
  rw [lt_iff hx hb]
  omega

/-! ## The total order -/

/-- The total order refines the numeric one. -/
theorem numericKey_le_of_orderKey_le {x y : Float} (h : orderKey x ≤ orderKey y) :
    numericKey x ≤ numericKey y := by
  rw [orderKey, orderKey] at h
  rw [numericKey, numericKey]
  split_ifs at h ⊢ <;> omega

/-- Doubles with one place in the total order have the same bits. -/
theorem eq_of_orderKey_eq {x y : Float} (h : orderKey x = orderKey y) : x = y := by
  have hbits : x.toBits = y.toBits := by
    have hx := x.toBits.toNat_lt
    have hy := y.toBits.toNat_lt
    have hpow : Nat.pow 2 63 = 9223372036854775808 := rfl
    rw [← UInt64.toNat_inj]
    simp only [orderKey, isNegative, magnitude, hpow, decide_eq_true_eq] at h
    split_ifs at h <;> omega
  obtain ⟨⟨a, ha⟩⟩ := x
  obtain ⟨⟨b, hb⟩⟩ := y
  obtain rfl : a = b := hbits
  rfl

/-- The two zeros are the only equal numbers with places of their own. -/
theorem zeros_of_orderKey_lt {x y : Float} (h : orderKey x < orderKey y)
    (heq : numericKey x = numericKey y) : x = -0.0 ∧ y = 0.0 := by
  have hneg : orderKey (-0.0) = -1 := by decide +kernel
  have hpos : orderKey 0.0 = 0 := by decide +kernel
  have hkeys : orderKey x = -1 ∧ orderKey y = 0 := by
    rw [orderKey, orderKey] at h ⊢
    rw [numericKey, numericKey] at heq
    split_ifs at h heq ⊢ <;> omega
  exact ⟨eq_of_orderKey_eq (hkeys.1.trans hneg.symm), eq_of_orderKey_eq (hkeys.2.trans hpos.symm)⟩

/-! ## The larger of two -/

theorem isNaN_larger {a b : Float} (ha : a.isNaN = false) : (larger a b).isNaN = false := by
  rw [larger]
  split_ifs with hb
  · exact ha
  · exact ha
  · exact Bool.eq_false_iff.2 hb

theorem numericKey_larger {a b : Float} (ha : a.isNaN = false) (hb : b.isNaN = false) :
    numericKey (larger a b) = max (numericKey a) (numericKey b) := by
  rw [larger, if_neg (Bool.eq_false_iff.1 hb)]
  split_ifs with hlt
  · rw [max_eq_left (le_of_lt ((lt_iff hb ha).1 hlt))]
  · rw [max_eq_right (not_lt.1 fun h => hlt ((lt_iff hb ha).2 h))]

/-- A maximum is not below its first argument, whatever the second is. -/
theorem numericKey_le_larger {a b : Float} (ha : a.isNaN = false) :
    numericKey a ≤ numericKey (larger a b) := by
  cases hb : b.isNaN with
  | true => rw [larger, if_pos hb]
  | false =>
    rw [numericKey_larger ha hb]
    exact le_max_left _ _

/-- **One more number.** The larger of the greatest of some numbers and one more double is the
greatest of them all; a double that is not a number is not among them, and is passed over. -/
theorem isGreatest_larger {P : Float → Prop} {m x : Float}
    (h : IsGreatest {u | u.isNaN = false ∧ P u} m) :
    IsGreatest {u | u.isNaN = false ∧ (P u ∨ u = x)} (larger m x) := by
  obtain ⟨⟨hm, hP⟩, hgreatest⟩ := h
  have hbound {u : Float} (hu : u.isNaN = false) (hle : numericKey u ≤ numericKey m) :
      u ≤ larger m x :=
    (le_iff hu (isNaN_larger hm)).2 (le_trans hle (numericKey_le_larger hm))
  constructor
  · refine ⟨isNaN_larger hm, ?_⟩
    rw [larger]
    split_ifs
    · exact .inl hP
    · exact .inl hP
    · exact .inr rfl
  · rintro u ⟨hu, hPu | rfl⟩
    · exact hbound hu ((le_iff hu hm).1 (hgreatest ⟨hu, hPu⟩))
    · rw [le_iff hu (isNaN_larger hm), numericKey_larger hm hu]
      exact le_max_right _ _

/-! ## The smaller of two -/

/-- A minimum with a number is a number, and not above it. -/
theorem isNaN_smaller {a b : Float} (hb : b.isNaN = false) : (smaller a b).isNaN = false := by
  rw [smaller, if_neg (Bool.eq_false_iff.1 hb)]
  split_ifs with hlt
  · exact isNaN_eq_false_of_lt hlt
  · exact hb

theorem numericKey_smaller_le {a b : Float} (hb : b.isNaN = false) :
    numericKey (smaller a b) ≤ numericKey b := by
  rw [smaller, if_neg (Bool.eq_false_iff.1 hb)]
  split_ifs with hlt
  · exact le_of_lt ((lt_iff (isNaN_eq_false_of_lt hlt) hb).1 hlt)
  · exact le_refl _

/-- A minimum passes over what is not a number. -/
theorem smaller_of_isNaN {a b : Float} (ha : a.isNaN = true) (hb : b.isNaN = false) :
    smaller a b = b := by
  rw [smaller, if_neg (Bool.eq_false_iff.1 hb), if_neg]
  intro hlt
  rw [isNaN_eq_false_of_lt hlt] at ha
  cases ha

end SchedAudit.Binary64
