import SchedAudit.Schedule
import SchedAudit.Violation

/-!
# Rules of reclaiming

Two rules hold GRUB's arithmetic against the trace. A replenished budget is what the server can use
up to its deadline, and virtual time advances with the bandwidth over the utilization while a server
runs. Both need a task with a server and a placement, and a bandwidth above zero.
-/

namespace SchedAudit.Rule

/-! ## Budgets -/

/-- The budget of a server: utilization over bandwidth times the virtual time left to the deadline,
at least zero. -/
def expectedBudget (scaled bandwidth : Float) (v : Server) : Float :=
  Binary64.larger (scaled / bandwidth * (v.deadline - v.virtualTime)) 0.0

/-- A replenished budget follows the formula. -/
def budgetMismatch? (σ : Setting) (s : Schedule) (time : Float) (tid : Nat) (budget : Float) :
    Option Violation := do
  let v ← s.server? tid
  let c ← s.placement? tid
  let bandwidth := s.bandwidth σ c
  if bandwidth ≤ 0.0 then none
  else
    let scaled := s.scaledUtilization σ tid
    let expected := expectedBudget scaled bandwidth v
    if Tolerance.approxEq budget expected then none
    else
      let given := Decimal.fixed 6 budget
      let due := Decimal.fixed 6 expected
      let u := Decimal.fixed 4 scaled
      let bw := Decimal.fixed 4 bandwidth
      let deadline := Decimal.fixed 6 v.deadline
      let vt := Decimal.fixed 6 v.virtualTime
      some ⟨.budgetFormula, time, some tid,
        s!"budget={given} expected={due} (scaled_u={u} bw={bw} deadline={deadline} vt={vt})"⟩

/-! ## The rate of virtual time -/

/-- The numbers of an interval over which virtual time did not advance as it should. -/
structure RateMismatch where
  /-- the task -/
  tid : Nat
  /-- the cluster it is placed on -/
  cluster : Nat
  /-- wall-clock time between the samples -/
  deltaWall : Float
  /-- virtual time between the samples -/
  deltaVt : Float
  /-- virtual time that should have passed -/
  expected : Float
  /-- bandwidth of the cluster -/
  bandwidth : Float
  /-- utilization in the unit of the cluster -/
  scaled : Float

/-- The mismatch as a violation at a time. -/
def RateMismatch.violation (m : RateMismatch) (time : Float) : Violation :=
  let vt := Decimal.fixed 6 m.deltaVt
  let due := Decimal.fixed 6 m.expected
  let wall := Decimal.fixed 6 m.deltaWall
  let bw := Decimal.fixed 4 m.bandwidth
  let u := Decimal.fixed 4 m.scaled
  ⟨.vtRate, time, some m.tid,
    s!"delta_vt={vt} expected={due} over delta_wall={wall} (bw={bw} scaled_u={u})"⟩

/-- Virtual time advances with `bandwidth / scaled` from the last sample to this one. Nothing can be
said where there is no last sample, the server did not run all the time, servers joined or left the
cluster, or the interval is too short. The sample itself must not be in the schedule yet. -/
def rateMismatch? (σ : Setting) (s : Schedule) (time : Float) (tid : Nat) (virtualTime : Float) :
    Option RateMismatch := do
  let v ← s.server? tid
  let c ← s.placement? tid
  if !v.continuous || v.membershipChanged then none
  else
    let baseline ← v.latest
    let deltaWall := time - baseline.time
    if deltaWall ≤ Tolerance.shortestInterval then none
    else
      let bandwidth := s.bandwidth σ c
      let scaled := s.scaledUtilization σ tid
      if bandwidth ≤ 0.0 ∨ scaled ≤ 0.0 then none
      else
        let deltaVt := virtualTime - baseline.value
        let expected := bandwidth / scaled * deltaWall
        if Tolerance.approxEq deltaVt expected then none
        else some ⟨tid, c, deltaWall, deltaVt, expected, bandwidth, scaled⟩

end SchedAudit.Rule
