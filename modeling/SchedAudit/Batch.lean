import SchedAudit.Discovery
import SchedAudit.Simulator

/-!
# Batches of runs

A batch runs every policy on every scenario. Each run is made on its own: the scenario is loaded,
the simulator makes a trace, and the trace is audited. Nothing that goes wrong in a run touches
another one.

Runs are made side by side and finish in any order. Each has a place of its own among the results,
so that `Course.results` is in the order of scenarios and policies, whatever the order in which
`Course.progress` tells of them. The runs of a scenario that cannot be loaded need no simulator;
they are over before any other.
-/

namespace SchedAudit

/-- What the runs of a batch have in common. -/
structure Batch where
  /-- the platform that traces are audited on -/
  platform : Platform
  /-- the policies, and how the simulator is told them -/
  settings : Settings
  /-- the simulator -/
  simulator : Simulator
  /-- where scenarios are -/
  files : Files
  /-- whether rate violations are explained -/
  diagnoses : Bool

/-- A run to be made. -/
structure PlannedRun where
  /-- its place among the results -/
  place : Nat
  /-- the scenario -/
  scenario : ScenarioFile
  /-- the policy -/
  policy : Policy

/-- Says that a run is over, and how many are by then. -/
structure Progress where
  /-- how many runs are over, this one among them -/
  done : Nat
  /-- how many runs the batch has -/
  total : Nat
  /-- the run -/
  run : RunResult

/-- What comes of a batch. -/
structure Course where
  /-- the results in the order of scenarios and policies -/
  results : List RunResult
  /-- what was told, in the order in which the runs finished -/
  progress : List Progress

namespace Batch

/-- The runs of a batch in the order of their places. -/
def planned (scenarios : List ScenarioFile) (policies : List Policy) : List PlannedRun :=
  scenarios.zipIdx.flatMap fun (scenario, i) =>
    policies.zipIdx.map fun (policy, j) => ⟨i * policies.length + j, scenario, policy⟩

variable (b : Batch)

/-- The tasks of a scenario. -/
def tasksOf (scenario : ScenarioFile) : Except RunError (List Task) :=
  Task.loadForRun scenario.path (b.files.look scenario.path)

/-- Whether a scenario can be loaded. -/
def loads (scenario : ScenarioFile) : Bool := (b.tasksOf scenario).toOption.isSome

/-- The report on a run, or why there is none. -/
def report (scenario : ScenarioFile) (policy : Policy) : Except RunError Report :=
  match b.tasksOf scenario with
  | .error e => .error e
  | .ok tasks =>
    match b.simulator.trace scenario.path (b.settings.flags policy) with
    | .error e => .error e
    | .ok trace => .ok (Report.ofTrace b.platform tasks policy b.diagnoses trace)

/-- The result of a run. -/
def result (run : PlannedRun) : RunResult where
  scenario := run.scenario.name
  level := run.scenario.level
  policy := run.policy
  outcome := Outcome.ofExcept (b.report run.scenario run.policy)

/-- The runs in the order in which they are over, when `order` is the order in which those finish
that need the simulator. -/
def finishing (order : List PlannedRun → List PlannedRun) (runs : List PlannedRun) :
    List PlannedRun :=
  runs.filter (fun r => !b.loads r.scenario) ++ order (runs.filter fun r => b.loads r.scenario)

/-- Results put into their places. -/
def assemble (total : Nat) (finished : List (Nat × RunResult)) : List RunResult :=
  (finished.foldl (fun places f => places.set f.1 (some f.2)) (List.replicate total none)).filterMap
    id

/-- Results told one after the other. -/
def announce (total : Nat) (finished : List (Nat × RunResult)) : List Progress :=
  finished.zipIdx.map fun (f, i) => ⟨i + 1, total, f.2⟩

/-- The course of a batch whose runs finish in an order. -/
def courseIn (order : List PlannedRun → List PlannedRun) (scenarios : List ScenarioFile) :
    Course :=
  let policies := b.settings.policies
  let total := scenarios.length * policies.length
  let finished := (b.finishing order (planned scenarios policies)).map fun r =>
    (r.place, b.result r)
  ⟨assemble total finished, announce total finished⟩

/-- The course of a batch whose runs are made one after the other. -/
def course (scenarios : List ScenarioFile) : Course := b.courseIn id scenarios

end Batch

end SchedAudit
