import SchedAudit.Arguments
import SchedAudit.Policy

/-!
# Options of the command line

Either the arguments name one recorded trace, with its scenario and its policy, or they say where
the scenarios of a batch are. What is left out has a default.
-/

namespace SchedAudit.CommandLine

/-- A trace that was recorded, and what it was made of. -/
structure Recording where
  /-- the path of the trace -/
  trace : String
  /-- the path of the scenario -/
  scenario : String
  /-- the policy -/
  policy : Policy

/-- What the arguments say. -/
structure Options where
  /-- the path of the platform -/
  platform : String
  /-- the directory of hand-crafted scenarios -/
  scenariosDirectory : String
  /-- the directory of generated scenarios -/
  generatedDirectory : String
  /-- the path of the simulator -/
  simulator : String
  /-- how many runs are made side by side -/
  workers : Option Nat
  /-- whether hand-crafted scenarios are run -/
  handcrafted : Bool
  /-- whether generated scenarios are run -/
  generated : Bool
  /-- whether rate violations are explained -/
  diagnoses : Bool
  /-- what the names of scenario files must contain -/
  filter : Option String
  /-- the path of the settings -/
  settings : Option String
  /-- the recorded trace to check, in place of a batch -/
  recording : Option Recording

namespace Options

/-- The options and their letters. -/
def all : List ArgumentOption :=
  [{ name := "platform" }, { name := "scenarios-dir" }, { name := "generated-dir" },
    { name := "schedsim" }, { name := "jobs", letter := 'j' },
    { name := "no-handcrafted", takesValue := false },
    { name := "no-generated", takesValue := false },
    { name := "dump-violations", takesValue := false }, { name := "scenario-filter" },
    { name := "config", letter := 'c' }, { name := "trace" }, { name := "scenario" },
    { name := "policy" }]

/-- A recorded trace needs its scenario and its policy, and they need the trace. -/
def recordingOf? (trace scenario : Option String) (policy : Option Policy) :
    Option (Option Recording) :=
  match trace, scenario, policy with
  | some trace, some scenario, some policy => some (some ⟨trace, scenario, policy⟩)
  | none, none, none => some none
  | _, _, _ => none

open Arguments in
/-- What is given, with defaults for what is not. -/
def ofGiven? (given : Given) : Option Options := do
  let platform ← given.read? "platform" path?
  let scenarios ← given.read? "scenarios-dir" path?
  let generated ← given.read? "generated-dir" path?
  let simulator ← given.read? "schedsim" path?
  let workers ← given.read? "jobs" natural?
  let settings ← given.read? "config" path?
  let trace ← given.read? "trace" path?
  let scenario ← given.read? "scenario" path?
  let policy ← given.read? "policy" Policy.ofName?
  return {
    platform := platform.getD "platforms/exynos5422LITTLE.json"
    scenariosDirectory := scenarios.getD "tests/scenarios"
    generatedDirectory := generated.getD "tests/scenarios/generated"
    simulator := simulator.getD "build/apps/schedsim-new"
    workers := workers
    handcrafted := !given.has "no-handcrafted"
    generated := !given.has "no-generated"
    diagnoses := given.has "dump-violations"
    filter := given.text? "scenario-filter"
    settings := settings
    recording := ← recordingOf? trace scenario policy }

/-- What the arguments say, unless they are misused. -/
def parse? (arguments : List String) : Option Options := do
  ofGiven? (← Arguments.parse? all arguments)

/-- The paths at which single files are looked for. -/
def filePaths (o : Options) : List String :=
  [o.platform, o.simulator] ++ o.settings.toList ++
    o.recording.toList.flatMap fun r => [r.trace, r.scenario]

/-- The directories of scenarios. -/
def directories (o : Options) : List String := [o.scenariosDirectory, o.generatedDirectory]

end Options

end SchedAudit.CommandLine
