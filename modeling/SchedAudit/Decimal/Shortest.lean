import SchedAudit.Decimal.Fixed

/-!
# Shortest decimals: the fewest digits that read back

A diagnosis shows samples in full: with the fewest decimal digits that read back as the same
double, and among those with the digits nearest to it.

* `shortest` chooses the digits. A double `m * 2 ^ e` stands for an interval of reals, halfway to
  its two neighbours, with the ends included when `m` is even. For one digit, two digits, up to
  seventeen, the two decimals of that length around the value are compared with the interval in
  exact natural arithmetic; the first length with a hit wins.
* `Layout` says how digits are laid out, and `Layout.write` writes them.
-/

namespace SchedAudit.Decimal

/-! ## Choosing the digits -/

/-- The reals that round to one double, over the common denominator `den`: `low` and `high` are
the ends, `mid` the double itself. -/
structure Interval where
  /-- numerator of the lower end -/
  low : Nat
  /-- numerator of the double -/
  mid : Nat
  /-- numerator of the upper end -/
  high : Nat
  /-- the common denominator -/
  den : Nat
  /-- whether the ends themselves round to the double -/
  closed : Bool

/-- The interval of `mantissa * 2 ^ exponent`. Below a power of two the neighbour is only half as
far away, unless the exponent is already the least one. -/
def Interval.around (mantissa : Nat) (exponent : Int) : Interval :=
  let below := if mantissa = Nat.pow 2 52 ∧ exponent ≠ -1074 then 1 else 2
  let scale := Nat.pow 2 exponent.toNat
  { low := (4 * mantissa - below) * scale
    mid := 4 * mantissa * scale
    high := (4 * mantissa + 2) * scale
    den := 4 * Nat.pow 2 (-exponent).toNat
    closed := mantissa % 2 = 0 }

/-- The same interval in units of `10 ^ exp10`. -/
def Interval.inUnits (i : Interval) (exp10 : Int) : Interval :=
  let up := Nat.pow 10 (-exp10).toNat
  { i with
    low := i.low * up
    mid := i.mid * up
    high := i.high * up
    den := i.den * Nat.pow 10 exp10.toNat }

/-- Whether the natural number `n` lies in the interval. -/
def Interval.contains (i : Interval) (n : Nat) : Bool :=
  if i.closed then i.low ≤ n * i.den && n * i.den ≤ i.high
  else i.low < n * i.den && n * i.den < i.high

/-- The natural number of the interval next to its double: the one below or the one above, the
nearer if both are inside, the upper one halfway between. -/
def Interval.nearest? (i : Interval) : Option Nat :=
  let lower := i.mid / i.den
  let upper := lower + 1
  if i.contains lower then
    if i.contains upper && upper * i.den - i.mid ≤ i.mid - lower * i.den then some upper
    else some lower
  else if i.contains upper then some upper
  else none

/-- The decimal exponent of the first digit: the greatest `k` among the `fuel` integers below
`start` with `10 ^ k ≤ mid / den`. -/
def Interval.leadingExponent (i : Interval) : Nat → Int → Int
  | 0, start => start
  | fuel + 1, start =>
    if i.den * Nat.pow 10 start.toNat ≤ i.mid * Nat.pow 10 (-start).toNat then start
    else i.leadingExponent fuel (start - 1)

/-- Digits `d` and exponent `k` of a decimal `d * 10 ^ k`. -/
structure Digits where
  /-- the digits as one natural number -/
  digits : Nat
  /-- the power of ten of the last digit -/
  exponent : Int

/-- Tries `length`, `length + 1`, … digits, `fuel` times. -/
def Interval.search (i : Interval) (leading : Int) : Nat → Int → Option Digits
  | 0, _ => none
  | fuel + 1, length =>
    let exponent := leading + 1 - length
    match (i.inUnits exponent).nearest? with
    | some digits => some ⟨digits, exponent⟩
    | none => i.search leading fuel (length + 1)

/-- The fewest digits that read back as `mantissa * 2 ^ exponent`. Seventeen always do. The first
guess of the leading exponent is the binary one, scaled by an upper bound of `log 2 / log 10`; the
true one is at most a few places below. -/
def shortest (mantissa : Nat) (exponent : Int) : Digits :=
  if mantissa = 0 then ⟨0, 0⟩
  else
    let i := Interval.around mantissa exponent
    let guess := ((Nat.log2 mantissa + 1 : Int) + exponent) * 30103 / 100000 + 1
    (i.search (i.leadingExponent 4 guess) 17 1).getD ⟨mantissa, 0⟩

/-! ## Laying them out -/

/-- How digits are written. -/
structure Layout where
  /-- the least exponent of the first digit that is written positionally -/
  positionalFrom : Int
  /-- the first exponent of the first digit that is written with an exponent again -/
  positionalBelow : Int

/-- Samples are written positionally from `0.0001` up to below `1e16`, with at least one digit
after the point; other numbers have an exponent without plus sign or leading zeros. -/
def Layout.sample : Layout := ⟨-4, 16⟩

/-- Leaves out trailing zeros. -/
def dropTrailingZeros (digits : List Char) : List Char :=
  (digits.reverse.dropWhile (· == '0')).reverse

/-- Writes an integer. -/
def integer (i : Int) : String :=
  sign (i < 0) ++ paddedDigits 1 i.natAbs

/-- Writes `0.digits`, `dig.its` or `digits000.0`, where the first digit has exponent `leading`. -/
def positional (digits : List Char) (leading : Int) : String :=
  if leading < 0 then
    "0." ++ String.ofList (List.replicate (-leading - 1).toNat '0' ++ digits)
  else
    let width := leading.toNat + 1
    let whole := digits.take width ++ List.replicate (width - digits.length) '0'
    let rest := digits.drop width
    String.ofList whole ++ "." ++ (if rest.isEmpty then "0" else String.ofList rest)

/-- Writes `d.igitse12`, without a point when there is one digit. -/
def exponential (digits : List Char) (leading : Int) : String :=
  let rest := digits.drop 1
  String.ofList (digits.take 1) ++ (if rest.isEmpty then "" else "." ++ String.ofList rest) ++
    "e" ++ integer leading

/-- Writes the absolute value of a finite number. -/
def Layout.write (layout : Layout) (d : Digits) : String :=
  if d.digits = 0 then "0.0"
  else
    let all := Nat.toDigits 10 d.digits
    let leading : Int := all.length - 1 + d.exponent
    let digits := dropTrailingZeros all
    if layout.positionalFrom ≤ leading ∧ leading < layout.positionalBelow then
      positional digits leading
    else exponential digits leading

/-- A double in full. -/
def full (x : Float) : String :=
  match Binary64.classify x with
  | .nan => "NaN"
  | .infinite negative => sign negative ++ "inf"
  | .finite negative mantissa exponent =>
    sign negative ++ Layout.sample.write (shortest mantissa exponent)

example : full 0.1 = "0.1" ∧ full (0.1 + 0.2) = "0.30000000000000004" ∧ full (-0.0) = "-0.0" := by
  decide +kernel

example : full 1e16 = "1e16" ∧ full 0.00001 = "1e-5" ∧ full 0.0001 = "0.0001" := by
  decide +kernel

example : full 5e-324 = "5e-324" ∧ full 1.7976931348623157e308 = "1.7976931348623157e308" := by
  decide +kernel

end SchedAudit.Decimal
