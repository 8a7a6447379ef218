import SchedAudit.Binary64

/-!
# Fixed places: doubles with a set number of decimals

Every quantity in a violation or a table is written with a set number of decimal places, rounded
from the *exact* value of the double; half a unit in the last place goes to the even neighbour.
The work is done by `roundHalfEven` on naturals. A negative number keeps its sign even where all
digits shown are zero.
-/

namespace SchedAudit.Decimal

/-- The natural number nearest to `num / den`; halfway the even neighbour is taken. -/
def roundHalfEven (num den : Nat) : Nat :=
  let quotient := num / den
  let rest := num % den
  if 2 * rest < den then quotient
  else if den < 2 * rest then quotient + 1
  else if quotient % 2 = 0 then quotient else quotient + 1

/-- `mantissa * 2 ^ exponent` in units of `10 ^ -places`, rounded. -/
def roundToPlaces (places mantissa : Nat) (exponent : Int) : Nat :=
  if 0 ≤ exponent then mantissa * Nat.pow 2 exponent.toNat * Nat.pow 10 places
  else roundHalfEven (mantissa * Nat.pow 10 places) (Nat.pow 2 (-exponent).toNat)

/-- The sign that stands in front of a number. -/
def sign (negative : Bool) : String := if negative then "-" else ""

/-- The decimal digits of `n`, filled up with zeros on the left to at least `width`. -/
def paddedDigits (width n : Nat) : String :=
  let digits := Nat.toDigits 10 n
  String.ofList (List.replicate (width - digits.length) '0' ++ digits)

/-- Writes `units * 10 ^ -places`: the whole part, a point, and `places` digits. -/
def pointed (places units : Nat) : String :=
  let one := Nat.pow 10 places
  paddedDigits 1 (units / one) ++ "." ++ paddedDigits places (units % one)

/-- A double with `places` decimals. -/
def fixed (places : Nat) (x : Float) : String :=
  match Binary64.classify x with
  | .nan => "NaN"
  | .infinite negative => sign negative ++ "inf"
  | .finite negative mantissa exponent =>
    sign negative ++ pointed places (roundToPlaces places mantissa exponent)

example : fixed 2 0.125 = "0.12" ∧ fixed 2 0.375 = "0.38" ∧ fixed 2 (-0.001) = "-0.00" := by
  decide +kernel

example : fixed 6 12345.6789 = "12345.678900" ∧ fixed 1 (0.0 / 0.0) = "NaN" := by
  decide +kernel

end SchedAudit.Decimal
