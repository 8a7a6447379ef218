import Mathlib
import SchedAudit.Binary64

/-!
# Products and quotients that are numbers

`Float` computes a product or a quotient from the unpacked arguments, rounds it, and packs it again.
Three of these steps can lose the number: a zero meets an infinity, a zero divides a zero, or an
infinity an infinity. Where the arguments rule that out the result is a number, an infinity at worst:
rounding never leaves the numbers (`isNaN_roundWithAccuracy`), nor does packing
(`isNaN_unpack_pack`).
-/

namespace SchedAudit.Binary64

open Float.Model

/-- What is not a number has all bits of the exponent set, and some bit of the mantissa. -/
theorem isNaN_unpack_eq_false_iff {b : BitVec 64} :
    (UnpackedFloat.unpack .binary64 b).isNaN = false ↔
      (@UnpackedFloat.unpackExponent .binary64 b = -1#_ →
        @UnpackedFloat.unpackMantissa .binary64 b = 0#_) := by
  dsimp only [UnpackedFloat.unpack]
  split_ifs with hexponent hmantissa hzero hmantissa
  · exact iff_of_true rfl fun _ => hmantissa
  · exact iff_of_false Bool.noConfusion fun h => hmantissa (h hexponent)
  · exact iff_of_true rfl fun h => absurd h hexponent
  · exact iff_of_true rfl fun h => absurd h hexponent
  · exact iff_of_true rfl fun h => absurd h hexponent

theorem isNaN_unpack_pack {f : UnpackedFloat} (hf : f.isNaN = false) :
    (pack f).unpack.isNaN = false := by
  refine isNaN_unpack_eq_false_iff.2 ?_
  change @UnpackedFloat.unpackExponent .binary64 (f.pack .binary64) = _ →
    @UnpackedFloat.unpackMantissa .binary64 (f.pack .binary64) = _
  fun_cases UnpackedFloat.pack with
  | case1 => cases hf
  | case2 s => simp [UnpackedFloat.packedInfinity]
  | case3 s => simp [UnpackedFloat.packedZero]
  | case4 s m e hm biased h => simp [UnpackedFloat.packedInfinity]
  | case5 s m e hm bits biased hbiased hbits =>
    -- An exponent within bounds leaves a bit unset.
    rw [UnpackedFloat.unpackExponent_packComponents]
    intro h
    have hlt : biased + 1 < 2 ^ 11 := Nat.lt_of_not_le hbiased
    have hall := congrArg BitVec.toNat h
    rw [BitVec.toNat_ofNat, Nat.mod_eq_of_lt (by simp only; omega), BitVec.neg_one_eq_allOnes,
      BitVec.toNat_allOnes] at hall
    simp only at hall
    omega
  | case6 s m e hm biased hbiased hbits => simp

theorem isNaN_roundWithAccuracy (s : UnpackedFloat.Sign) (m : Nat) (e : Int)
    (accuracy : UnpackedFloat.Accuracy) :
    (UnpackedFloat.roundWithAccuracy .binary64 s m e accuracy).isNaN = false := by
  dsimp only [UnpackedFloat.roundWithAccuracy]
  split_ifs <;> rfl

section Unpacked

variable {a b : UnpackedFloat}

theorem isNaN_mul_unpacked (ha : a.isFinite = true) (hb : b.isFinite = true) :
    (a.mul .binary64 b).isNaN = false := by
  cases a with
  | notANumber | infinity => cases ha
  | zero =>
    cases b with
    | notANumber | infinity => cases hb
    | zero | finite => rfl
  | finite =>
    cases b with
    | notANumber | infinity => cases hb
    | zero => rfl
    | finite => exact isNaN_roundWithAccuracy ..

theorem isNaN_div_unpacked (ha : a.isNaN = false) (hb : b.isFinite = true)
    (hzero : ∀ s, b ≠ .zero s) : (a.div .binary64 b).isNaN = false := by
  cases b with
  | notANumber | infinity => cases hb
  | zero s => exact absurd rfl (hzero s)
  | finite =>
    cases a with
    | notANumber => cases ha
    | infinity | zero => rfl
    | finite => exact isNaN_roundWithAccuracy ..

end Unpacked

variable {x y : Float}

/-- **The product of two finite numbers is a number.** -/
theorem isNaN_mul (hx : x.isFinite = true) (hy : y.isFinite = true) : (x * y).isNaN = false :=
  isNaN_unpack_pack (isNaN_mul_unpacked hx hy)

/-- **The quotient of a number by a positive finite one is a number.** -/
theorem isNaN_div (hx : x.isNaN = false) (hy : y.isFinite = true) (hpos : 0.0 < y) :
    (x / y).isNaN = false := by
  refine isNaN_unpack_pack (isNaN_div_unpacked hx hy fun s hs => ?_)
  change decide ((0.0 : Float).toModel.unpack.lt y.toModel.unpack = true) = true at hpos
  rw [hs, decide_eq_true_eq] at hpos
  cases hpos

end SchedAudit.Binary64
