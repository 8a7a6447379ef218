/-!
# Binary64: the doubles the audit computes with

All quantities of a trace are doubles, and sums, products and comparisons are those of `Float`,
made in a fixed order of operations. This module holds what the audit needs beside them. Each of
these functions looks at the bits of its argument, so that it is a statement about naturals:

* `classify` — the value behind the bits: not a number, an infinity, or `± mantissa * 2 ^ exponent`.
* `orderKey` — the **total order** of all doubles as an integer key. It refines `<`: negative zero
  comes before zero, and a value that is not a number comes last.
* `larger`, `smaller` — maximum and minimum that pass over a value that is not a number.
* `ceilingUpTo` — the least natural number above a double, cut off at a bound.
* `sortAscending`, `sortDescending`, `dropRepeats` — lists in the total order.
-/

namespace SchedAudit.Binary64

/-! ## The value behind the bits -/

/-- What a double stands for. -/
inductive Value where
  /-- no number at all -/
  | nan
  /-- an infinity of the given sign -/
  | infinite (negative : Bool)
  /-- the number `mantissa * 2 ^ exponent`, negated when `negative`; a zero keeps its sign -/
  | finite (negative : Bool) (mantissa : Nat) (exponent : Int)
deriving Repr, DecidableEq

/-- The 63 bits below the sign. -/
def magnitude (x : Float) : Nat := x.toBits.toNat % Nat.pow 2 63

/-- Whether the sign bit is set, as it is on negative zero. -/
def isNegative (x : Float) : Bool := Nat.pow 2 63 ≤ x.toBits.toNat

/-- Reads a double: eleven bits of exponent with an offset of 1075, 52 bits of mantissa, and a
leading one that is left out unless the exponent bits are zero. -/
def classify (x : Float) : Value :=
  let exponentBits : Nat := magnitude x / Nat.pow 2 52
  let fraction : Nat := magnitude x % Nat.pow 2 52
  if exponentBits = 2047 then
    if fraction = 0 then .infinite (isNegative x) else .nan
  else if exponentBits = 0 then
    .finite (isNegative x) fraction (-1074)
  else
    .finite (isNegative x) (Nat.pow 2 52 + fraction) (exponentBits - 1075)

/-! ## Order -/

/-- The place of a double in the total order. Sign and magnitude become one integer; the bits of a
larger magnitude are the larger natural number, and negative zero is put one below zero. -/
def orderKey (x : Float) : Int :=
  if isNegative x then -(magnitude x : Int) - 1 else magnitude x

/-- The larger of two doubles. A value that is not a number is passed over, and of two equal
values (the two zeros) the second is taken. -/
def larger (a b : Float) : Float :=
  if b.isNaN then a else if b < a then a else b

/-- The smaller of two doubles, with the same rules as `larger`. -/
def smaller (a b : Float) : Float :=
  if b.isNaN then a else if a < b then a else b

/-- The sum of a list from the left. It starts at negative zero, the neutral element of addition:
a list of negative zeros adds up to negative zero. -/
def total (xs : List Float) : Float := xs.foldl (· + ·) (-0.0)

/-- The largest of a list and a starting value. -/
def largest (start : Float) (xs : List Float) : Float := xs.foldl larger start

/-- The least finite double. -/
def lowest : Float := -1.7976931348623157e308

/-! ## Naturals -/

/-- The least natural number that is not below `x`, but at most `bound`. What is negative or not a
number gives zero. -/
def ceilingUpTo (bound : Nat) (x : Float) : Nat :=
  match classify x with
  | .nan => 0
  | .infinite negative => if negative then 0 else bound
  | .finite true _ _ => 0
  | .finite false mantissa exponent =>
    if 0 ≤ exponent then min (mantissa * Nat.pow 2 exponent.toNat) bound
    else
      let unit := Nat.pow 2 (-exponent).toNat
      min ((mantissa + unit - 1) / unit) bound

/-! ## Lists in order -/

/-- Ascending in the total order; equal elements keep their places. -/
def sortAscending (xs : List Float) : List Float :=
  xs.mergeSort fun a b => orderKey a ≤ orderKey b

/-- Descending in the total order; equal elements keep their places. -/
def sortDescending (xs : List Float) : List Float :=
  xs.mergeSort fun a b => orderKey b ≤ orderKey a

/-- Leaves out each element that equals `kept`, the element kept last. -/
def dropRepeatsOf (kept : Float) : List Float → List Float
  | [] => []
  | x :: rest => if x == kept then dropRepeatsOf kept rest else x :: dropRepeatsOf x rest

/-- Leaves out each element that equals its neighbour before it. The two zeros are equal, and a
value that is not a number equals nothing. -/
def dropRepeats : List Float → List Float
  | [] => []
  | x :: rest => x :: dropRepeatsOf x rest

@[simp] theorem dropRepeats_nil : dropRepeats [] = [] := rfl

@[simp] theorem dropRepeats_cons (x : Float) (rest : List Float) :
    dropRepeats (x :: rest) = x :: dropRepeatsOf x rest := rfl

@[simp] theorem total_nil : total [] = -0.0 := rfl

@[simp] theorem largest_nil (start : Float) : largest start [] = start := rfl

@[simp] theorem largest_cons (start x : Float) (xs : List Float) :
    largest start (x :: xs) = largest (larger start x) xs := rfl

/-- Sorting loses and invents nothing. -/
theorem sortAscending_perm (xs : List Float) : (sortAscending xs).Perm xs :=
  List.mergeSort_perm xs _

/-- Sorting loses and invents nothing. -/
theorem sortDescending_perm (xs : List Float) : (sortDescending xs).Perm xs :=
  List.mergeSort_perm xs _

end SchedAudit.Binary64
