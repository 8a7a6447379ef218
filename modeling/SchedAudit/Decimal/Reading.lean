import SchedAudit.Binary64

/-!
# Reading decimals

A decimal is a natural number of digits and a power of ten. It is read to the nearest double. Where
the power of ten alone decides the answer — zero or infinity — the power is not computed, so that a
text such as `1e-999999999` costs nothing.
-/

namespace SchedAudit.Decimal

/-- The number of decimal digits of `n`, at least one. -/
def digitCount (n : Nat) : Nat := (Nat.toDigits 10 n).length

/-- The double nearest to `digits * 10 ^ exponent`; beyond the largest double it is infinite. -/
def nearest (digits : Nat) (exponent : Int) : Float :=
  if digits = 0 then 0.0
  else if 310 < digitCount digits + exponent then Float.ofScientific 1 false 310
  else if digitCount digits + exponent < -330 then 0.0
  else Float.ofScientific digits (exponent < 0) exponent.natAbs

/-- The value of a decimal digit. -/
def digitValue (c : Char) : Nat := c.toNat - '0'.toNat

/-- The natural number that a list of decimal digits writes. -/
def ofDigits (digits : List Char) : Nat :=
  digits.foldl (fun n c => 10 * n + digitValue c) 0

/-- The double nearest to `whole.fraction`. -/
def nearestPointed (whole fraction : List Char) : Float :=
  nearest (ofDigits (whole ++ fraction)) (-fraction.length)

end SchedAudit.Decimal
