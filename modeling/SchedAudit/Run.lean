import SchedAudit.Audit

/-!
# Runs: one scenario under one policy

A run needs a scenario, a policy and the trace that the simulator made of them. Where one of these
cannot be had the run is inconclusive: it is skipped for a reason, `RunError`, and counts neither as
passed nor as failed. `Report.ofRecording` is a run whose trace already lies in a file.
-/

namespace SchedAudit

/-- Why a run is inconclusive. -/
inductive RunError where
  /-- the scenario could not be loaded, so the simulator was not started -/
  | scenario (reason : String)
  /-- the simulator could not be started -/
  | spawn (path : String)
  /-- the simulator did not end within so many milliseconds -/
  | timeout (milliseconds : Nat)
  /-- the simulator ended without success -/
  | simulatorFailed (status stderr : String)
  /-- the simulator left no text behind -/
  | traceUnreadable (reason : Unreadable)
  /-- the simulator left a text behind that is no trace -/
  | traceMalformed
  /-- the trace could not be examined -/
  | checker (reason : String)
deriving Repr, DecidableEq

/-- The reason in words. A time limit is told in whole seconds. -/
def RunError.message : RunError → String
  | .scenario reason => s!"scenario could not be loaded: {reason}"
  | .spawn path => s!"failed to start simulator {path}"
  | .timeout milliseconds => s!"simulator timed out after {milliseconds / 1000}s"
  | .simulatorFailed status stderr => s!"simulator exited with {status}: {stderr}"
  | .traceUnreadable reason => s!"cannot read trace output: {reason.message}"
  | .traceMalformed => "malformed trace output"
  | .checker reason => s!"checker task failed: {reason}"

/-! ## Loading -/

section Loading

variable {guarded guardedToo : Bool}

/-- The tasks of the scenario found at a path. -/
def Task.loadForRun (path : String) (found : Found guarded) : Except RunError (List Task) :=
  match Task.load path found with
  | .ok tasks => .ok tasks
  | .error e => .error (.scenario e.message)

/-- The trace found in a file. -/
def Trace.load (found : Found guarded) : Except RunError Trace :=
  match found.text with
  | .error reason => .error (.traceUnreadable reason)
  | .ok source =>
    match Trace.parse? source with
    | some trace => .ok trace
    | none => .error .traceMalformed

/-- The report on a trace that lies in a file. A scenario that cannot be loaded is the first thing
to go wrong. -/
def Report.ofRecording (platform : Platform) (policy : Policy) (diagnoses : Bool)
    (scenarioPath : String) (scenario : Found guarded) (recording : Found guardedToo) :
    Except RunError Report :=
  match Task.loadForRun scenarioPath scenario with
  | .error e => .error e
  | .ok tasks =>
    match Trace.load recording with
    | .error e => .error e
    | .ok trace => .ok (Report.ofTrace platform tasks policy diagnoses trace)

end Loading

/-! ## Results -/

/-- How a run ended. -/
inductive Outcome where
  /-- the trace was examined, and may break invariants -/
  | completed (report : Report)
  /-- there is no trace to examine -/
  | skipped (error : RunError)

/-- A run and how it ended. -/
structure RunResult where
  /-- the name of the scenario -/
  scenario : String
  /-- the utilization level of a generated scenario -/
  level : Option Float
  /-- the policy -/
  policy : Policy
  /-- how the run ended -/
  outcome : Outcome

/-- How the examination of a run ended, as an outcome. -/
def Outcome.ofExcept : Except RunError Report → Outcome
  | .ok report => .completed report
  | .error e => .skipped e

namespace RunResult

/-- Scenario and policy. -/
def label (r : RunResult) : String := r.scenario ++ ":" ++ r.policy.name

/-- The violations of a completed run. -/
def violations? (r : RunResult) : Option (List Violation) :=
  match r.outcome with
  | .completed report => some report.violations
  | .skipped _ => none

/-- The violations of a run; a skipped one has none. -/
def violations (r : RunResult) : List Violation := r.violations?.getD []

/-- Whether the run was completed and broke an invariant. -/
def isFailure (r : RunResult) : Bool := !r.violations.isEmpty

/-- Whether the run is inconclusive. -/
def isSkipped (r : RunResult) : Bool := r.violations?.isNone

/-- The verdict on a run in one word, with the number of violations. -/
def status (r : RunResult) : String :=
  match r.violations? with
  | none => "SKIP"
  | some [] => "PASS"
  | some violations => s!"FAIL({violations.length})"

/-- Whether no completed run broke an invariant. Skipped runs do not count. -/
def allPassed (results : List RunResult) : Bool := !results.any isFailure

end RunResult

end SchedAudit
