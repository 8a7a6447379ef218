import SchedAudit.Schedule
import SchedAudit.Violation

/-!
# Rules on frequencies

Each frequency policy chooses a mode of a cluster from the utilizations of its servers. The three
rules share their shape: utilizations give a raw frequency, the raw frequency a mode, and the
frequency of the trace must match the mode. They differ in which servers count, on how many cores,
and in whether the effective frequency is a floor.
-/

namespace SchedAudit.Rule

/-- The mode that FFA and CSF take for a frequency: at least the mode of the effective frequency,
where there is one. -/
def modeAboveFloor (cluster : Cluster) (frequency : Float) : Float :=
  let floor := cluster.effectiveFrequency
  if floor > 0.0 ∧ frequency < floor then cluster.ceilToMode floor
  else cluster.ceilToMode frequency

/-- What a frequency rule asks for. -/
structure FrequencyDemand where
  /-- the frequency before rounding -/
  raw : Float
  /-- the mode that should be set -/
  expected : Float
  /-- the numbers that went into it -/
  inputs : String

/-- The violation of a frequency that does not match a demand. -/
def FrequencyDemand.violation? (d : FrequencyDemand) (kind : Invariant) (time : Float) (c : Nat)
    (frequency : Float) : Option Violation :=
  if Tolerance.approxEq frequency d.expected then none
  else
    let given := Decimal.fixed 1 frequency
    let due := Decimal.fixed 1 d.expected
    let raw := Decimal.fixed 4 d.raw
    some ⟨kind, time, none,
      s!"cluster={c} freq={given} expected={due} raw={raw} ({d.inputs})"⟩

/-- The power-aware demand: all attached servers, and the watermark as the largest utilization. -/
def powerAwareDemand? (s : Schedule) (cluster : Cluster) (c : Nat) : Option FrequencyDemand :=
  let attached := Schedule.scaledOn cluster (s.attachedOn c)
  if attached.isEmpty then none
  else
    let total := Binary64.total attached
    let uMax := s.watermark c
    let raw := Formula.rawFrequency cluster.topFrequency total uMax cluster.processors
    let expected := cluster.ceilToMode (Binary64.smaller raw cluster.topFrequency)
    let totalText := Decimal.fixed 4 total
    let maxText := Decimal.fixed 4 uMax
    some ⟨raw, expected, s!"total_u={totalText} u_max={maxText} m={cluster.processors}"⟩

/-- The utilizations that FFA and CSF reckon with: the sum over the active servers, unless there is
none, and the largest over all servers that are placed on the cluster, active or not. -/
def activeInputs? (s : Schedule) (cluster : Cluster) : Option (Float × Float) :=
  let active := Schedule.scaledOn cluster (s.activeOn cluster.id)
  if active.isEmpty then none
  else
    let placed := Schedule.scaledOn cluster (s.serversOn cluster.id)
    some (Binary64.total active, Binary64.largest 0.0 placed)

/-- The FFA demand: the active servers on all cores. -/
def ffaDemand? (s : Schedule) (cluster : Cluster) : Option FrequencyDemand := do
  let (total, uMax) ← activeInputs? s cluster
  let raw := Formula.rawFrequency cluster.topFrequency total uMax cluster.processors
  let expected := modeAboveFloor cluster (Binary64.smaller raw cluster.topFrequency)
  let totalText := Decimal.fixed 4 total
  let maxText := Decimal.fixed 4 uMax
  return ⟨raw, expected, s!"active_u={totalText} u_max={maxText} m={cluster.processors}"⟩

/-- The CSF demand: the active servers on as few cores as they need. -/
def csfDemand? (s : Schedule) (cluster : Cluster) : Option FrequencyDemand := do
  let (total, uMax) ← activeInputs? s cluster
  let cores := Formula.activeCores total uMax cluster.processors
  let raw := Formula.rawFrequency cluster.topFrequency total uMax cores
  let expected := modeAboveFloor cluster (Binary64.smaller raw cluster.topFrequency)
  let totalText := Decimal.fixed 4 total
  let maxText := Decimal.fixed 4 uMax
  return ⟨raw, expected, s!"active_u={totalText} u_max={maxText} m_min={cores}"⟩

/-- The demand of one frequency rule; the other invariants demand nothing. -/
def demand? (kind : Invariant) (s : Schedule) (cluster : Cluster) (c : Nat) :
    Option FrequencyDemand :=
  match kind with
  | .powerAwareFrequency => powerAwareDemand? s cluster c
  | .ffaFrequency => ffaDemand? s cluster
  | .csfFrequency => csfDemand? s cluster
  | _ => none

/-- The last frequency of a cluster matches the demand of a rule. Nothing can be said about a
cluster that the platform does not have. -/
def frequencyMismatch? (kind : Invariant) (σ : Setting) (s : Schedule) (time : Float) (c : Nat) :
    Option Violation := do
  let cluster ← σ.platform.cluster? c
  let frequency ← s.frequency? c
  let demand ← demand? kind s cluster c
  demand.violation? kind time c frequency

end SchedAudit.Rule
