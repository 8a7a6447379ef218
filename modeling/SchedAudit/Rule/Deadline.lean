import SchedAudit.Schedule
import SchedAudit.Violation

/-!
# Rules on deadlines

Three rules compare a time or a deadline with the deadline of a server: jobs finish in time, virtual
time stays behind the deadline, and the scheduler prefers the earliest deadline. A task without a
server breaks none of them.
-/

namespace SchedAudit.Rule

/-- A job finishes no later than the deadline of its server. -/
def deadlineMiss? (s : Schedule) (time : Float) (tid : Nat) : Option Violation := do
  let v ← s.server? tid
  if time ≤ v.deadline + Tolerance.absolute then none
  else
    let now := Decimal.fixed 6 time
    let deadline := Decimal.fixed 6 v.deadline
    let late := Decimal.fixed 6 (time - v.deadline)
    some ⟨.noDeadlineMiss, time, some tid,
      s!"job finished at t={now} after deadline={deadline} (late by {late})"⟩

/-- A reported virtual time does not exceed the deadline of the server. -/
def vtPastDeadline? (s : Schedule) (time : Float) (tid : Nat) (virtualTime : Float) :
    Option Violation := do
  let v ← s.server? tid
  if virtualTime ≤ v.deadline + Tolerance.deadline then none
  else
    let reported := Decimal.fixed 6 virtualTime
    let deadline := Decimal.fixed 6 v.deadline
    some ⟨.vtLeDeadline, time, some tid,
      s!"virtual_time={reported} exceeds deadline={deadline}"⟩

/-- Whether `other` is ready with a deadline before that of `running`. Deadlines within the
tolerance are equal. -/
def overtaken (running other : Server) : Bool :=
  other.phase == .ready && other.deadline < running.deadline - Tolerance.absolute

/-- The violation that a scheduled server and another one, which should run first, give. -/
def edfViolation (time : Float) (tid : Nat) (running other : Server) : Violation :=
  let scheduled := Decimal.fixed 6 running.deadline
  let earlier := Decimal.fixed 6 other.deadline
  ⟨.edfOrdering, time, some tid,
    s!"scheduled deadline={scheduled} but tid={other.tid} is Ready with earlier deadline={earlier}"⟩

/-- A scheduled server has the earliest deadline among the attached ready servers of its cluster;
each server that breaks this is a violation of its own. -/
def edfOrdering (s : Schedule) (time : Float) (tid : Nat) : List Violation :=
  match s.server? tid, s.placement? tid with
  | some running, some c =>
    ((s.attachedOn c).filter fun other => other.tid != tid && overtaken running other).map
      (edfViolation time tid running)
  | _, _ => []

end SchedAudit.Rule
