import SchedAudit.Decimal.Fixed
import SchedAudit.Policy

/-!
# Violations

A violation is data, not an error: a trace is always examined to its end. It names the invariant,
the time of the entry that shows it, and the task, unless it is the frequency of a whole cluster
that is wrong.
-/

namespace SchedAudit

/-- One breach of an invariant. -/
structure Violation where
  /-- the invariant that is broken -/
  kind : Invariant
  /-- the time of the entry that shows it -/
  time : Float
  /-- the task concerned; none for frequencies -/
  tid : Option Nat
  /-- the numbers behind it -/
  detail : String

namespace Violation

/-- The detail behind the name of the invariant, so that it can stand alone. -/
def message (v : Violation) : String := v.kind.name ++ ": " ++ v.detail

/-- The time and the task in front of a message. -/
def place (v : Violation) : String :=
  let time := "t=" ++ Decimal.fixed 6 v.time
  match v.tid with
  | some tid => s!"{time} tid={tid}"
  | none => time

/-- A violation on one line. -/
def text (v : Violation) : String := v.place ++ " " ++ v.message

end Violation

end SchedAudit
