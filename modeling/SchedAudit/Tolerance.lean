import SchedAudit.Binary64

/-!
# Tolerances

The numbers of a trace are computed by another program, in another order of operations, so they
never match exactly. `approxEq` is the comparison for values; the other constants are slacks of
single rules.
-/

namespace SchedAudit.Tolerance

/-- The greatest difference of two values that counts as none, and the slack of deadlines. -/
def absolute : Float := 1e-4

/-- The greatest difference, relative to the larger magnitude, that counts as none. -/
def relative : Float := 1e-4

/-- The slack of a virtual time over its deadline. -/
def deadline : Float := 1e-4

/-- Up to this length an interval is too short to say anything about a rate. -/
def shortestInterval : Float := 1e-9

/-- An arrival counts as to come when it is later than now by more than this. -/
def futureArrival : Float := 1e-9

/-- Whether two values match: their difference is within the absolute tolerance, or within the
relative one of the larger magnitude. What is not a number matches the two zeros and nothing else,
since the larger magnitude is then zero. -/
def approxEq (a b : Float) : Bool :=
  let difference := (a - b).abs
  if difference ≤ absolute then true
  else
    let magnitude := Binary64.larger a.abs b.abs
    magnitude == 0.0 || difference / magnitude ≤ relative

end SchedAudit.Tolerance
