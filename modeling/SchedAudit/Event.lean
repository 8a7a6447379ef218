import SchedAudit.Json.Value

/-!
# Events and traces

The simulator writes one entry for each thing that happens: the time and the event. `Event` has a
constructor for each kind; the name of the kind and the fields that belong to it are stated once, by
`Event.kind` and `Event.fields`, and `Event.ofKind?` builds an event back from them. What reads
events — from JSON or from elsewhere — is a reader of single fields, a `FieldReader`.

A trace is a JSON array of objects. The order of members is free, members that a kind does not know
are passed over, and one bad entry makes the whole trace unreadable.
-/

namespace SchedAudit

/-- Something that happens to the scheduler. -/
inductive Event where
  | jobArrival (tid : Nat)
  | jobFinished (tid : Nat)
  | taskPlaced (tid cluster : Nat)
  | taskScheduled (tid cpu : Nat)
  | taskPreempted (tid : Nat)
  | taskRejected (tid : Nat)
  | servReady (tid : Nat) (deadline utilization : Float)
  | servRunning (tid : Nat)
  | servNonCont (tid : Nat)
  | servInactive (tid : Nat)
  | servPostpone (tid : Nat) (deadline : Float)
  | servBudgetReplenished (tid : Nat) (budget : Float)
  | servBudgetExhausted (tid : Nat)
  /-- the bandwidth that the simulator itself reckons with is for diagnoses only -/
  | virtualTimeUpdate (tid : Nat) (virtualTime : Float) (bandwidth : Option Float)
  | frequencyUpdate (cluster : Nat) (frequency : Float)
  | procActivated (cpu : Nat)
  | procIdled (cpu : Nat)
  | procSleep (cpu : Nat)
  | procChange (cpu : Nat)
  | resched
  | simFinished
  | migrationCluster (tid cluster : Nat)

/-- An event and when it happens. -/
structure Entry where
  /-- wall-clock time -/
  time : Float
  /-- what happens -/
  event : Event

/-- The value of one field of an event. -/
inductive Datum where
  /-- the number of a task, a cluster or a processor -/
  | number (n : Nat)
  | real (x : Float)
  /-- a field that may be left out -/
  | optional (x : Option Float)

namespace Event

/-- The names of all kinds; their places are the numbers that may stand for them. -/
def kinds : List String :=
  ["job_arrival", "job_finished", "task_placed", "task_scheduled", "task_preempted",
    "task_rejected", "serv_ready", "serv_running", "serv_non_cont", "serv_inactive",
    "serv_postpone", "serv_budget_replenished", "serv_budget_exhausted", "virtual_time_update",
    "frequency_update", "proc_activated", "proc_idled", "proc_sleep", "proc_change", "resched",
    "sim_finished", "migration_cluster"]

/-- The name of the kind of an event. -/
def kind : Event → String
  | jobArrival .. => "job_arrival"
  | jobFinished .. => "job_finished"
  | taskPlaced .. => "task_placed"
  | taskScheduled .. => "task_scheduled"
  | taskPreempted .. => "task_preempted"
  | taskRejected .. => "task_rejected"
  | servReady .. => "serv_ready"
  | servRunning .. => "serv_running"
  | servNonCont .. => "serv_non_cont"
  | servInactive .. => "serv_inactive"
  | servPostpone .. => "serv_postpone"
  | servBudgetReplenished .. => "serv_budget_replenished"
  | servBudgetExhausted .. => "serv_budget_exhausted"
  | virtualTimeUpdate .. => "virtual_time_update"
  | frequencyUpdate .. => "frequency_update"
  | procActivated .. => "proc_activated"
  | procIdled .. => "proc_idled"
  | procSleep .. => "proc_sleep"
  | procChange .. => "proc_change"
  | resched => "resched"
  | simFinished => "sim_finished"
  | migrationCluster .. => "migration_cluster"

/-- The fields of an event, with their names. -/
def fields : Event → List (String × Datum)
  | jobArrival tid | jobFinished tid | taskPreempted tid | taskRejected tid | servRunning tid
  | servNonCont tid | servInactive tid | servBudgetExhausted tid => [("tid", .number tid)]
  | taskPlaced tid cluster | migrationCluster tid cluster =>
    [("tid", .number tid), ("cluster_id", .number cluster)]
  | taskScheduled tid cpu => [("tid", .number tid), ("cpu", .number cpu)]
  | servReady tid deadline utilization =>
    [("tid", .number tid), ("deadline", .real deadline), ("utilization", .real utilization)]
  | servPostpone tid deadline => [("tid", .number tid), ("deadline", .real deadline)]
  | servBudgetReplenished tid budget => [("tid", .number tid), ("budget", .real budget)]
  | virtualTimeUpdate tid virtualTime bandwidth =>
    [("tid", .number tid), ("virtual_time", .real virtualTime), ("bandwidth", .optional bandwidth)]
  | frequencyUpdate cluster frequency =>
    [("cluster_id", .number cluster), ("frequency", .real frequency)]
  | procActivated cpu | procIdled cpu | procSleep cpu | procChange cpu => [("cpu", .number cpu)]
  | resched | simFinished => []

/-- The task that an event names. -/
def task? : Event → Option Nat
  | jobArrival tid | jobFinished tid | taskPreempted tid | taskRejected tid | servRunning tid
  | servNonCont tid | servInactive tid | servBudgetExhausted tid | taskPlaced tid _
  | migrationCluster tid _ | taskScheduled tid _ | servReady tid _ _ | servPostpone tid _
  | servBudgetReplenished tid _ | virtualTimeUpdate tid _ _ => some tid
  | frequencyUpdate .. | procActivated .. | procIdled .. | procSleep .. | procChange ..
  | resched | simFinished => none

/-! ## Building events -/

/-- A way to read the fields of one event by their names. -/
structure FieldReader where
  /-- a number of a task, a cluster or a processor -/
  number? : String → Option Nat
  /-- a double that must be there -/
  real? : String → Option Float
  /-- a double that may be left out; the outer option is none where it is bad -/
  optional? : String → Option (Option Float)

/-- The event of a kind, its fields read by `r`. -/
def ofKind? (r : FieldReader) (kind : String) : Option Event :=
  match kind with
  | "job_arrival" => return jobArrival (← r.number? "tid")
  | "job_finished" => return jobFinished (← r.number? "tid")
  | "task_placed" => return taskPlaced (← r.number? "tid") (← r.number? "cluster_id")
  | "task_scheduled" => return taskScheduled (← r.number? "tid") (← r.number? "cpu")
  | "task_preempted" => return taskPreempted (← r.number? "tid")
  | "task_rejected" => return taskRejected (← r.number? "tid")
  | "serv_ready" =>
    return servReady (← r.number? "tid") (← r.real? "deadline") (← r.real? "utilization")
  | "serv_running" => return servRunning (← r.number? "tid")
  | "serv_non_cont" => return servNonCont (← r.number? "tid")
  | "serv_inactive" => return servInactive (← r.number? "tid")
  | "serv_postpone" => return servPostpone (← r.number? "tid") (← r.real? "deadline")
  | "serv_budget_replenished" =>
    return servBudgetReplenished (← r.number? "tid") (← r.real? "budget")
  | "serv_budget_exhausted" => return servBudgetExhausted (← r.number? "tid")
  | "virtual_time_update" =>
    return virtualTimeUpdate (← r.number? "tid") (← r.real? "virtual_time")
      (← r.optional? "bandwidth")
  | "frequency_update" =>
    return frequencyUpdate (← r.number? "cluster_id") (← r.real? "frequency")
  | "proc_activated" => return procActivated (← r.number? "cpu")
  | "proc_idled" => return procIdled (← r.number? "cpu")
  | "proc_sleep" => return procSleep (← r.number? "cpu")
  | "proc_change" => return procChange (← r.number? "cpu")
  | "resched" => return resched
  | "sim_finished" => return simFinished
  | "migration_cluster" => return migrationCluster (← r.number? "tid") (← r.number? "cluster_id")
  | _ => none

/-! ## Reading JSON -/

/-- The name of the kind that a `type` member gives, as a name or as a number. -/
def kindOfJson? : Json → Option String
  | .text name => name
  | .number n => do kinds[← n.toNat?]?
  | _ => none

/-- Reads fields from the members of an object. None may repeat, and an optional one may be
`null`. -/
def memberReader (members : List (String × Json)) : FieldReader where
  number? name := do (← ← Json.member? name members).nat?
  real? name := do (← ← Json.member? name members).float?
  optional? name := do
    match ← Json.member? name members with
    | none => return none
    | some .null => return none
    | some v => return some (← v.float?)

end Event

namespace Entry

/-- How deep the value of a member may be nested: the limit of 127 counts the array of the trace
and the object of the entry. -/
def depthLimit : Nat := 125

/-- Reads an entry: `time`, `type` and the fields of the kind. Members other than `time` are kept
until the kind is known, so all of them must be sound. -/
def ofJson? : Json → Option Entry
  | .object members => do
    let named ← Json.namedMembers? members
    let time ← (← ← Json.member? "time" named).float?
    let others := named.filter (·.1 != "time")
    if others.all fun m => m.2.isSound && m.2.depth ≤ depthLimit then
      let kind ← Event.kindOfJson? (← ← Json.member? "type" others)
      let event ← Event.ofKind? (Event.memberReader others) kind
      return ⟨time, event⟩
    else none
  | _ => none

end Entry

/-- What a simulator run left behind, in the order in which it happened. -/
abbrev Trace := List Entry

namespace Trace

/-- The trace that a text writes. -/
def parse? (source : String) : Option Trace :=
  (Json.parse? source).bind (Json.listOf? Entry.ofJson?)

/-- Splits a trace between neighbours of different times. The two zeros are the same time, and an
entry whose time is not a number is always a batch of its own. -/
def batches (trace : Trace) : List Trace := trace.splitBy fun a b => a.time == b.time

end Trace

end SchedAudit
