import Mathlib
import SchedAudit.Decimal.Reading
import SchedAudit.Proofs.Binary64.Arithmetic
import SchedAudit.Proofs.Binary64.Order

/-!
# Decimals are read without a sign

A decimal without a sign is read as a double without a sign: a number, an infinity at worst, and never
negative zero (`isUnsigned_nearest`). Such doubles have one order only: the total order and the
numeric one say the same of them (`lt_iff_orderKey_lt`).

Reading multiplies or divides by a power of ten, and rounds. Neither step can bring in a sign, or lose
the number: a power of ten is no zero and no infinity.
-/

namespace SchedAudit.Binary64

open Float.Model UnpackedFloat

/-! ## Unsigned doubles -/

/-- A number without a sign, be it zero or infinite. -/
def Unsigned : UnpackedFloat → Prop
  | .zero s | .infinity s | .finite s _ _ _ => s = .positive
  | .notANumber => False

/-- A double that is a number and has no sign. -/
structure IsUnsigned (x : Float) : Prop where
  isNaN : x.isNaN = false
  isNegative : isNegative x = false

theorem unsigned_unpack_iff {x : Float} : Unsigned x.toModel.unpack ↔ IsUnsigned x := by
  have hsign : signOf x = .positive ↔ isNegative x = false := by
    rw [signOf]
    cases isNegative x <;> simp
  have hnum : x.isNaN = x.toModel.unpack.isNaN := rfl
  rcases unpack_cases x with h | ⟨-, h⟩ | ⟨-, h⟩ | ⟨m, e, hm, h, -⟩
  · rw [h]
    refine iff_of_false id fun hx => ?_
    rw [h] at hnum
    exact absurd (hnum.symm.trans hx.isNaN) Bool.noConfusion
  all_goals
    rw [h] at hnum ⊢
    exact hsign.trans ⟨fun hx => ⟨hnum, hx⟩, IsUnsigned.isNegative⟩

/-- Packing brings in no sign. -/
theorem isUnsigned_pack {f : UnpackedFloat} (hf : Unsigned f) :
    IsUnsigned (Float.ofModel (pack f)) where
  isNaN := by
    refine isNaN_unpack_pack ?_
    cases f with
    | notANumber => cases hf
    | zero | infinity | finite => rfl
  isNegative := by
    have hsign := ofBitVec_unpackSign (Float.ofModel (pack f))
    have hpacked : @unpackSign .binary64 (f.pack .binary64) = Sign.positive.toBitVec := by
      cases f with
      | notANumber => cases hf
      | zero s | infinity s =>
        cases hf
        exact unpackSign_packComponents ..
      | finite s m e hm =>
        cases hf
        dsimp only [UnpackedFloat.pack]
        split_ifs <;> exact unpackSign_packComponents ..
    change Sign.ofBitVec (@unpackSign .binary64 (f.pack .binary64)) = _ at hsign
    rw [hpacked, signOf] at hsign
    cases h : isNegative (Float.ofModel (pack f)) with
    | false => rfl
    | true =>
      rw [h] at hsign
      cases hsign

/-- The two orders agree on unsigned doubles. -/
theorem IsUnsigned.numericKey_eq {x : Float} (hx : IsUnsigned x) : numericKey x = orderKey x := by
  rw [numericKey, orderKey, hx.isNegative]
  rfl

theorem IsUnsigned.lt_iff_orderKey_lt {x y : Float} (hx : IsUnsigned x) (hy : IsUnsigned y) :
    x < y ↔ orderKey x < orderKey y := by
  rw [lt_iff hx.isNaN hy.isNaN, hx.numericKey_eq, hy.numericKey_eq]

/-! ## Arithmetic -/

theorem unsigned_roundWithAccuracy (m : Nat) (e : Int) (a : Accuracy) :
    Unsigned (roundWithAccuracy .binary64 .positive m e a) := by
  dsimp only [roundWithAccuracy]
  split_ifs <;> rfl

section Finite

variable {f : UnpackedFloat} {m : Nat} {e : Int} (hm : 0 < m)

theorem unsigned_finite : Unsigned (.finite .positive m e hm) := rfl

variable (hf : Unsigned f)

include hf

theorem unsigned_mul_finite : Unsigned (f.mul .binary64 (.finite .positive m e hm)) := by
  cases f with
  | notANumber => cases hf
  | zero s | infinity s =>
    cases hf
    rfl
  | finite s m' e' hm' =>
    cases hf
    exact unsigned_roundWithAccuracy ..

theorem unsigned_div_finite : Unsigned (f.div .binary64 (.finite .positive m e hm)) := by
  cases f with
  | notANumber => cases hf
  | zero s | infinity s =>
    cases hf
    rfl
  | finite s m' e' hm' =>
    cases hf
    exact unsigned_roundWithAccuracy ..

end Finite

/-- A double that is finite and above zero. -/
def IsPositive (x : Float) : Prop := ∃ m e hm, x.toModel.unpack = .finite .positive m e hm

theorem isPositive_of_lt {x : Float} (hpos : 0.0 < x) (hfinite : x.isFinite = true) :
    IsPositive x := by
  change decide ((0.0 : Float).toModel.unpack.lt x.toModel.unpack = true) = true at hpos
  change x.toModel.unpack.isFinite = true at hfinite
  rw [decide_eq_true_eq] at hpos
  rw [IsPositive]
  cases hx : x.toModel.unpack with
  | notANumber | infinity =>
    rw [hx] at hfinite
    cases hfinite
  | zero =>
    rw [hx] at hpos
    cases hpos
  | finite s m e hm =>
    cases s with
    | negative =>
      rw [hx] at hpos
      cases hpos
    | positive => exact ⟨m, e, hm, rfl⟩

theorem IsPositive.isFinite {x : Float} (hx : IsPositive x) : x.isFinite = true := by
  obtain ⟨m, e, hm, hunpack⟩ := hx
  change x.toModel.unpack.isFinite = true
  rw [hunpack]
  rfl

theorem IsPositive.zero_lt {x : Float} (hx : IsPositive x) : 0.0 < x := by
  obtain ⟨m, e, hm, hunpack⟩ := hx
  change decide ((0.0 : Float).toModel.unpack.lt x.toModel.unpack = true) = true
  rw [hunpack]
  rfl

theorem IsUnsigned.mul {x y : Float} (hx : IsUnsigned x) (hy : IsPositive y) :
    IsUnsigned (x * y) := by
  obtain ⟨m, e, hm, hy⟩ := hy
  have hproduct := unsigned_mul_finite (e := e) hm (unsigned_unpack_iff.2 hx)
  rw [← hy] at hproduct
  exact isUnsigned_pack hproduct

theorem IsUnsigned.div {x y : Float} (hx : IsUnsigned x) (hy : IsPositive y) :
    IsUnsigned (x / y) := by
  obtain ⟨m, e, hm, hy⟩ := hy
  have hquotient := unsigned_div_finite (e := e) hm (unsigned_unpack_iff.2 hx)
  rw [← hy] at hquotient
  exact isUnsigned_pack hquotient

/-! ## Reading -/

/-- The powers of ten that a double holds exactly. -/
theorem isPositive_powerOfTen (i : Fin 23) :
    IsPositive Float.exactlyRepresentablePowersOfTen[i] := by
  have hpowers : ∀ i : Fin 23, 0.0 < Float.exactlyRepresentablePowersOfTen[i] ∧
      Float.exactlyRepresentablePowersOfTen[i].isFinite = true := by
    decide +kernel
  exact isPositive_of_lt (hpowers i).1 (hpowers i).2

theorem unsigned_ofNat (n : Nat) : Unsigned (UnpackedFloat.ofNat .binary64 n) := by
  rw [UnpackedFloat.ofNat, UnpackedFloat.ofInt, UnpackedFloat.normalize]
  split
  · next h => exact absurd (Int.compare_eq_lt.1 h) (by omega)
  · rfl
  · exact unsigned_roundWithAccuracy ..

theorem unsigned_ofScientific (n : Nat) (e : Int) :
    Unsigned (UnpackedFloat.ofScientific .binary64 n e) := by
  fun_cases UnpackedFloat.ofScientific with
  | case1 => rfl
  | case2 => rfl
  | case3 => rfl
  | case4 => exact unsigned_mul_finite _ (unsigned_finite _)
  | case5 => exact unsigned_div_finite _ (unsigned_finite _)

theorem isUnsigned_ofScientific (n : Nat) (negative : Bool) (e : Nat) :
    IsUnsigned (Float.ofScientific n negative e) := by
  unfold Float.ofScientific
  by_cases hfast : n < 2 ^ 53 ∧ e ≤ 22
  · rw [dif_pos hfast]
    -- The number is converted, and a power of ten is put to it.
    have hconverted : IsUnsigned n.toUInt64.toFloat := isUnsigned_pack (unsigned_ofNat _)
    have hpower := isPositive_powerOfTen ⟨e, Nat.lt_succ_of_le hfast.2⟩
    cases negative with
    | true => exact hconverted.div hpower
    | false => exact hconverted.mul hpower
  · rw [dif_neg hfast]
    exact isUnsigned_pack (unsigned_ofScientific _ _)

end SchedAudit.Binary64

namespace SchedAudit.Decimal

open Binary64 (IsUnsigned)

/-- **A decimal is read as an unsigned number.** -/
theorem isUnsigned_nearest (digits : Nat) (exponent : Int) :
    IsUnsigned (nearest digits exponent) := by
  have hzero : IsUnsigned 0.0 := ⟨by decide, by decide⟩
  unfold nearest
  split_ifs
  · exact hzero
  · exact Binary64.isUnsigned_ofScientific ..
  · exact hzero
  · exact Binary64.isUnsigned_ofScientific ..

end SchedAudit.Decimal
