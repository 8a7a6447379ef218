import SchedAudit.Binary64

/-!
# Servers

GRUB gives each task a server with a deadline and a virtual time. `Server` is what a trace has shown
about one of them, and the functions here are what single events make of it. Two facts are kept for
the rule on the rate of virtual time, which compares two samples of one server: whether it ran
without a break since the last sample, and whether servers joined or left its cluster meanwhile.
-/

namespace SchedAudit

/-- Where a server stands in its life cycle. -/
inductive Phase where
  | inactive
  | ready
  | running
  | nonContinuing
deriving Repr, DecidableEq, Inhabited

/-- The name of a phase in diagnoses. -/
def Phase.name : Phase → String
  | .inactive => "Inactive"
  | .ready => "Ready"
  | .running => "Running"
  | .nonContinuing => "NonContinuing"

/-- A virtual time and the wall-clock time at which it was reported. -/
structure Sample where
  /-- wall-clock time -/
  time : Float
  /-- virtual time -/
  value : Float

/-- What is known about the server of one task. -/
structure Server where
  /-- the number of the task -/
  tid : Nat
  /-- utilization in the unit of the reference cluster -/
  utilization : Float
  /-- period of the task -/
  period : Float
  /-- current deadline; job arrivals do not set it -/
  deadline : Float := 0.0
  /-- current virtual time -/
  virtualTime : Float := 0.0
  /-- place in the life cycle -/
  phase : Phase := .inactive
  /-- whether the server counts for the bandwidth of its cluster -/
  attached : Bool := false
  /-- the last but one sample -/
  previous : Option Sample := none
  /-- the last sample -/
  latest : Option Sample := none
  /-- whether the server ran without a break since the last sample -/
  continuous : Bool := false
  /-- whether servers joined or left the cluster since the last sample -/
  membershipChanged : Bool := false

namespace Server

/-- Ready or running. -/
def isActive (v : Server) : Bool := v.phase == .ready || v.phase == .running

/-- A server that becomes ready: it is attached and has a new deadline. One that was inactive starts
afresh, with the time of day as its virtual time and without samples. -/
def ready (v : Server) (time deadline : Float) : Server :=
  let awake := { v with phase := .ready, deadline := deadline, attached := true }
  if v.phase = .inactive then
    { awake with
      virtualTime := time
      previous := none
      latest := none
      continuous := false
      membershipChanged := false }
  else awake

/-- A server that changes its phase, which ends its continuous interval. -/
def interrupt (v : Server) (phase : Phase) : Server :=
  { v with phase := phase, continuous := false }

/-- A server that goes inactive, and leaves the scheduler when no job is to come. -/
def deactivate (v : Server) (leaves : Bool) : Server :=
  let idle := v.interrupt .inactive
  if leaves then { idle with attached := false } else idle

/-- A server whose deadline is put off. -/
def postpone (v : Server) (deadline : Float) : Server := { v with deadline := deadline }

/-- A server with a new sample. -/
def sample (v : Server) (time value : Float) : Server :=
  { v with previous := v.latest, latest := some ⟨time, value⟩, virtualTime := value }

/-- A server whose last sample is the start of a new interval. -/
def restartInterval (v : Server) : Server :=
  { v with continuous := true, membershipChanged := false }

/-- A server whose cluster was joined or left by another one. -/
def noteMembership (v : Server) : Server := { v with membershipChanged := true }

end Server

end SchedAudit
