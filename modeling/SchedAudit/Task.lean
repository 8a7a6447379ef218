import SchedAudit.Binary64
import SchedAudit.Files.Found
import SchedAudit.Json.Value

/-!
# Tasks

A scenario declares a set of tasks. The audit needs three things of a task: the utilization and the
period its server starts with, and when its jobs arrive, since a server with a job to come stays
attached while it is inactive.
-/

namespace SchedAudit

/-- A declared task. -/
structure Task where
  /-- the number of the task, and of its server -/
  id : Nat
  /-- declared utilization, in the unit of the reference cluster -/
  utilization : Float
  /-- declared period -/
  period : Float
  /-- arrival times of its jobs, ascending -/
  arrivals : List Float

namespace Task

/-- A task with its arrivals in any order. -/
def declare (id : Nat) (utilization period : Float) (arrivals : List Float) : Task where
  id := id
  utilization := utilization
  period := period
  arrivals := Binary64.sortAscending arrivals

/-- Reads the `arrival` of a job. -/
def arrivalOfJson? (v : Json) : Option Float := do
  let [some arrival] ← v.fields? ["arrival"] | none
  arrival.float?

/-- Reads `id`, `utilization`, `period` and, unless they are left out, `jobs`. -/
def ofJson? (v : Json) : Option Task := do
  let [some id, some utilization, some period, jobs] ←
      v.fields? ["id", "utilization", "period", "jobs"]
    | none
  let arrivals ←
    match jobs with
    | some jobs => jobs.listOf? arrivalOfJson?
    | none => some []
  return declare (← id.nat?) (← utilization.float?) (← period.float?) arrivals

/-- The tasks that a text writes, as the field `tasks` of a structure. -/
def listOfText? (source : String) : Option (List Task) := do
  let [some tasks] ← (← Json.parse? source).fields? ["tasks"] | none
  tasks.listOf? ofJson?

/-- Loads the tasks of the scenario found at a path. -/
def load {guarded : Bool} (path : String) (found : Found guarded) : Except LoadError (List Task) :=
  match found.textAt path with
  | .error e => .error e
  | .ok source =>
    match listOfText? source with
    | none => .error (.malformed path)
    | some tasks => .ok tasks

end Task

end SchedAudit
